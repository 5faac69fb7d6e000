import Postgamma.Storage.NamespaceRuns

/-!
# Journal records

A record reads back as the change it was written for: the JSON text survives the encoder and the
parser whatever the name is, since lone surrogates are escaped. `replay` runs through a string of
records and stops at a torn one, and a complete record whose change is refused makes it throw.
-/

namespace Postgamma
namespace Storage

open Text Json LittleEndian

def Change.name : Change → Utf16
  | .create node => node.name
  | .move _ _ name => name
  | .remove _ name => name

/-- The name of the change comes back from a snapshot. -/
def Change.Lossless (change : Change) : Prop := Text.Lossless change.name

theorem nameOf_value (change : Change) : Namespace.nameOf change.value = some change.name := by
  cases change <;> rfl

theorem parse_of_record {fuel : Nat} {field : Utf16 × Utf16} {more : List (Utf16 × Utf16)}
    {values : List (Utf16 × Value)}
    (enough : 2 * (record (field :: more)).length + 2 = fuel + 1)
    (inner : parseMembers fuel (members (field :: more) ++ [0x7D]) = some (values, [])) :
    Json.parse (record (field :: more)) = some (.record values) := by
  have whole := parseValue_record inner
  rw [List.append_nil] at whole
  rw [Json.parse, enough, whole]
  rfl

theorem record_length (fields : List (Utf16 × Utf16)) :
    (record fields).length = (members fields).length + 2 := by
  simp [record]

/-- `JSON.parse` undoes `JSON.stringify` on changes. -/
theorem parse_stringify (change : Change) : Json.parse change.stringify = some change.value := by
  have enough : ∃ fuel, 2 * change.stringify.length + 2 = fuel + 12 := by
    apply Nat.exists_eq_add_of_le'
    cases change <;>
      simp only [Change.stringify, record_length, members, quote, List.length_append,
        List.length_cons] <;> omega
  obtain ⟨fuel, enough⟩ := enough
  cases change with
  | create node =>
      refine parse_of_record enough (parseMembers_cons (reads_quote (fuel + 9) _)
        (parseMembers_last ?_ []))
      intro rest ends
      refine parseValue_record (parseMembers_cons (reads_integer (fuel + 6) _)
        (parseMembers_cons (reads_integer (fuel + 5) _) (parseMembers_cons (reads_quote (fuel + 4) _)
          (parseMembers_cons (reads_integer (fuel + 3) _)
            (parseMembers_last (reads_integer (fuel + 2) _) rest)))))
  | move id parent name =>
      exact parse_of_record enough (parseMembers_cons (reads_quote (fuel + 9) _)
        (parseMembers_cons (reads_integer (fuel + 8) _)
          (parseMembers_cons (reads_integer (fuel + 7) _)
            (parseMembers_last (reads_quote (fuel + 6) _) []))))
  | remove parent name =>
      exact parse_of_record enough (parseMembers_cons (reads_quote (fuel + 9) _)
        (parseMembers_cons (reads_integer (fuel + 8) _)
          (parseMembers_last (reads_quote (fuel + 7) _) [])))

theorem decode_encode_stringify (change : Change) :
    Text.decode (Text.encode change.stringify) = some change.stringify := by
  cases change with
  | create node =>
      refine decode_encode_record ?_
      simp only [List.forall_mem_cons, List.not_mem_nil, false_implies, implies_true, and_true]
      refine ⟨wellFormed_quote _, wellFormed_record ?_⟩
      simp only [List.forall_mem_cons, List.not_mem_nil, false_implies, implies_true, and_true]
      exact ⟨wellFormed_integer _, wellFormed_integer _, wellFormed_quote _, wellFormed_integer _,
        wellFormed_integer _⟩
  | move id parent name =>
      refine decode_encode_record ?_
      simp only [List.forall_mem_cons, List.not_mem_nil, false_implies, implies_true, and_true]
      exact ⟨wellFormed_quote _, wellFormed_integer _, wellFormed_integer _, wellFormed_quote _⟩
  | remove parent name =>
      refine decode_encode_record ?_
      simp only [List.forall_mem_cons, List.not_mem_nil, false_implies, implies_true, and_true]
      exact ⟨wellFormed_quote _, wellFormed_integer _, wellFormed_quote _⟩

theorem readPayload_encode (change : Change) :
    Namespace.readPayload (Text.encode change.stringify) = .ok change.value := by
  simp only [Namespace.readPayload, decode_encode_stringify, parse_stringify]

/-- A record with a given checksum. -/
def recordFrame (payload : Bytes) (sequence checksum : Nat) : Bytes :=
  words [legacyMagic, payload.length, sequence, checksum] ++ payload

theorem recordFrame_length (payload : Bytes) (sequence checksum : Nat) :
    (recordFrame payload sequence checksum).length = 16 + payload.length := by
  simp [recordFrame]

theorem setUint32_recordFrame (payload : Bytes) (sequence old new : Nat) :
    setUint32 (recordFrame payload sequence old) 12 new = recordFrame payload sequence new := by
  have position : (words [legacyMagic, payload.length, sequence]).length = 12 := rfl
  exact setUint32_at old new position

theorem encode_eq_ok {change : Change} {sequence : Nat} {bytes : Bytes}
    (encoded : encode change sequence = .ok bytes) :
    (Text.encode change.stringify).length ≤ 4096 ∧ sequence < identityLimit ∧
      bytes = recordFrame (Text.encode change.stringify) sequence
        (crc32 (recordFrame (Text.encode change.stringify) sequence 0)) := by
  unfold encode at encoded
  dsimp only at encoded
  split_ifs at encoded with refused
  simp only [not_or, not_lt, not_le] at refused
  refine ⟨refused.1, refused.2.2, ?_⟩
  exact (Except.ok.inj encoded).symm.trans (setUint32_recordFrame _ _ 0 _)

theorem encode_length_pos {change : Change} {sequence : Nat} {bytes : Bytes}
    (encoded : encode change sequence = .ok bytes) : 16 ≤ bytes.length := by
  rw [(encode_eq_ok encoded).2.2, recordFrame_length]
  omega

namespace Namespace

/-- The words at the head of a record, whatever is left behind them. -/
theorem getUint32_record {length sequence checksum : Nat} (short : length ≤ 4096)
    (bounded : sequence < identityLimit) (small : checksum < 2 ^ 32) (rest : Bytes) :
    getUint32 (words [legacyMagic, length, sequence, checksum] ++ rest) 0 = legacyMagic ∧
      getUint32 (words [legacyMagic, length, sequence, checksum] ++ rest) 4 = length ∧
      getUint32 (words [legacyMagic, length, sequence, checksum] ++ rest) 8 = sequence ∧
      getUint32 (words [legacyMagic, length, sequence, checksum] ++ rest) 12 = checksum := by
  have read : ∀ (index : Nat) {value offset : Nat},
      [legacyMagic, length, sequence, checksum][index]? = some value → value < 2 ^ 32 →
      4 * index = offset →
      getUint32 (words [legacyMagic, length, sequence, checksum] ++ rest) offset = value := by
    intro index value offset found valueSmall place
    have front : ([] : Bytes).length + 4 * index = offset := by simpa using place
    exact getUint32_words found valueSmall front
  simp only [identityLimit] at bounded
  exact ⟨read 0 rfl (by decide) rfl, read 1 rfl (by omega) rfl, read 2 rfl (by omega) rfl,
    read 3 rfl small rfl⟩

theorem replayFrom_record {change : Change} {ns : Namespace} {record : Bytes}
    (encoded : encode change (ns.sequence + 1) = .ok record) (offset : Nat) (rest : Bytes) :
    ns.replayFrom offset (record ++ rest) =
      match apply change.value ns with
      | .error thrown next => (next, .error thrown)
      | .ok _ next =>
          (next.setSequence (next.sequence + 1)).replayFrom (offset + record.length) rest := by
  obtain ⟨short, bounded, rfl⟩ := encode_eq_ok encoded
  have payloadRead := readPayload_encode change
  generalize Text.encode change.stringify = payload at short payloadRead
  have small := crc32_lt (recordFrame payload (ns.sequence + 1) 0)
  generalize checksumEq : crc32 (recordFrame payload (ns.sequence + 1) 0) = checksum at small
  have length := recordFrame_length payload (ns.sequence + 1) checksum
  have whole : recordFrame payload (ns.sequence + 1) checksum ++ rest =
      words [legacyMagic, payload.length, ns.sequence + 1, checksum] ++ (payload ++ rest) :=
    List.append_assoc _ _ _
  obtain ⟨magic, size, sequence, -⟩ := getUint32_record short bounded small (payload ++ rest)
  rw [← whole] at magic size sequence
  have stored := (getUint32_record short bounded small payload).2.2.2
  have taken : (recordFrame payload (ns.sequence + 1) checksum ++ rest).take
      (16 + payload.length) = recordFrame payload (ns.sequence + 1) checksum :=
    List.take_left' length
  have left : (recordFrame payload (ns.sequence + 1) checksum ++ rest).drop
      (16 + payload.length) = rest := List.drop_left' length
  have inner : (recordFrame payload (ns.sequence + 1) checksum).drop 16 = payload := rfl
  have total : (recordFrame payload (ns.sequence + 1) checksum ++ rest).length =
      16 + payload.length + rest.length := by rw [List.length_append, length]
  rw [replayFrom, if_neg (by omega)]
  simp only [magic, size, sequence, taken, left, inner, length, setUint32_recordFrame, checksumEq,
    payloadRead]
  rw [if_neg (by omega), if_neg (by omega), if_neg (by simpa [recordFrame] using stored.symm),
    if_neg (by simp)]
  cases apply change.value ns <;> rfl

theorem replayFrom_torn {change : Change} {ns : Namespace} {record : Bytes} {sequence : Nat}
    (encoded : encode change sequence = .ok record) {count : Nat}
    (torn : count < record.length) (offset : Nat) :
    ns.replayFrom offset (record.take count) = (ns, .ok ⟨offset, count⟩) := by
  obtain ⟨short, bounded, rfl⟩ := encode_eq_ok encoded
  generalize Text.encode change.stringify = payload at short torn
  have small := crc32_lt (recordFrame payload sequence 0)
  generalize crc32 (recordFrame payload sequence 0) = checksum at small torn
  have length := recordFrame_length payload sequence checksum
  have taken : ((recordFrame payload sequence checksum).take count).length = count := by
    rw [List.length_take]
    omega
  rw [replayFrom]
  by_cases header : count < 16
  · rw [if_pos (by omega), taken]
  · have cut : (recordFrame payload sequence checksum).take count =
        words [legacyMagic, payload.length, sequence, checksum] ++ payload.take (count - 16) := by
      rw [recordFrame, List.take_append, List.take_of_length_le (by simp; omega)]
      simp
    obtain ⟨magic, size, -, -⟩ := getUint32_record short bounded small (payload.take (count - 16))
    rw [← cut] at magic size
    rw [if_neg (by omega)]
    simp only [magic, size, taken]
    rw [if_neg (by omega), if_pos (by omega)]

variable {ns after : Namespace}

theorem Applied.sequence_eq {name : Utf16} (step : ns.Applied name after) :
    after.sequence = ns.sequence := by
  cases step <;> rfl

/-- A change adds no name but its own. -/
theorem Applied.name_cases {name : Utf16} (step : ns.Applied name after) :
    ∀ node ∈ after.nodes, (∃ old ∈ ns.nodes, old.name = node.name) ∨ node.name = name := by
  have movedCases {nodes : List Node} {id parent : Nat} {name : Utf16}
      (inside : ∀ node ∈ nodes, node ∈ ns.nodes) :
      ∀ node ∈ nodes.map (moved id parent name),
        (∃ old ∈ ns.nodes, old.name = node.name) ∨ node.name = name := by
    intro node member
    obtain ⟨old, oldMember, rfl⟩ := List.mem_map.mp member
    by_cases same : old.id = id
    · exact .inr (by rw [moved_self same])
    · exact .inl ⟨old, inside old oldMember, by rw [moved_other same]⟩
  cases step with
  | create created =>
      intro node member
      rcases List.mem_append.mp member with member | member
      · exact .inl ⟨node, member, rfl⟩
      · rw [List.mem_singleton.mp member]
        exact .inr rfl
  | move node _ parent =>
      rw [nodes_move]
      exact movedCases fun _ => id
  | replace node _ replaced parent =>
      rw [nodes_move]
      exact movedCases fun _ member => (List.mem_filter.mp member).1
  | remove =>
      intro node member
      exact .inl ⟨node, (List.mem_filter.mp member).1, rfl⟩

/-- An accepted change makes a difference. -/
theorem Applied.ne {name : Utf16} (step : ns.Applied name after) :
    after.nodes ≠ ns.nodes ∨ after.nextId ≠ ns.nextId := by
  have deleted {replaced : Node} (member : replaced ∈ ns.nodes) :
      (ns.delete replaced.id).nodes.length < ns.nodes.length :=
    List.length_filter_lt_length_iff_exists.mpr ⟨replaced, member, by simp⟩
  cases step with
  | create node _ _ _ _ fresh =>
      refine .inr ?_
      simp only [setNextId]
      omega
  | move node _ parent _ located _ _ _ _ free =>
      refine .inl fun same => ?_
      have member := (mem_of_node? located).1
      rw [nodes_move] at same
      have unchanged : moved node.id parent name node = node := by
        have fixed := (List.map_inj_left.mp (same.trans (List.map_id ns.nodes).symm)) node member
        simpa using fixed
      rw [moved_self rfl] at unchanged
      exact ne_of_lookup_none free node member (congrArg Node.parent unchanged).symm
        (congrArg Node.name unchanged).symm
  | replace node _ replaced parent _ _ _ _ _ _ taken =>
      refine .inl fun same => ?_
      have shorter := deleted (mem_of_lookup taken).1
      have lengths := congrArg List.length same
      rw [nodes_move, List.length_map] at lengths
      omega
  | remove _ replaced _ _ _ _ _ taken =>
      refine .inl fun same => ?_
      have shorter := deleted (mem_of_lookup taken).1
      have lengths := congrArg List.length same
      omega

/-- Every name comes back from a snapshot. -/
def NamesLossless (ns : Namespace) : Prop := ∀ node ∈ ns.nodes, Text.Lossless node.name

theorem NamesLossless.apply {change : Change} (names : ns.NamesLossless)
    (lossless : change.Lossless) (accepted : apply change.value ns = .ok () after) :
    after.NamesLossless := by
  obtain ⟨name, named, step⟩ := applied_of_apply accepted
  obtain rfl : change.name = name := Option.some.inj ((nameOf_value change).symm.trans named)
  intro node member
  rcases step.name_cases node member with ⟨old, oldMember, same⟩ | same
  · exact same ▸ names old oldMember
  · exact same ▸ lossless

/-- The bytes are the records of changes that lead from one namespace to another. -/
inductive Logged (base : Namespace) : Bytes → Namespace → Prop where
  | nil : Logged base [] base
  | snoc {log record : Bytes} {ns after : Namespace} {change : Change}
      (before : Logged base log ns) (lossless : change.Lossless)
      (encoded : encode change (ns.sequence + 1) = .ok record)
      (accepted : apply change.value ns = .ok () after) :
      Logged base (log ++ record) (after.setSequence (after.sequence + 1))

theorem Logged.tree {base ns : Namespace} {log : Bytes} (logged : Logged base log ns)
    (tree : base.Tree) : ns.Tree := by
  induction logged with
  | nil => exact tree
  | snoc _ _ _ accepted induction =>
      obtain ⟨name, -, step⟩ := applied_of_apply accepted
      exact (induction.applied step).setSequence _

theorem Logged.names {base ns : Namespace} {log : Bytes} (logged : Logged base log ns)
    (names : base.NamesLossless) : ns.NamesLossless := by
  induction logged with
  | nil => exact names
  | snoc _ lossless _ accepted induction =>
      exact fun node member => induction.apply lossless accepted node member

theorem Logged.replayFrom {base ns : Namespace} {log : Bytes} (logged : Logged base log ns)
    (offset : Nat) (rest : Bytes) :
    base.replayFrom offset (log ++ rest) = ns.replayFrom (offset + log.length) rest := by
  induction logged generalizing rest with
  | nil => rfl
  | @snoc log record ns after change _ _ encoded accepted induction =>
      rw [List.append_assoc, induction, replayFrom_record encoded, accepted, List.length_append,
        Nat.add_assoc]

end Namespace

end Storage
end Postgamma
