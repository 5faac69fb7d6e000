import Mathlib.Tactic
import Postgamma.Wasm.ArchiveFrames

/-!
# Loading a database archive

An archive is a header, records and a last record that begins with a zero word. The loader completes
on the encodings of such lists and on nothing else. The digests are not keyed, so that a list of
other payloads has an encoding too; what the loader detects is a stream whose last digest stands for
another list than its own.
-/

namespace Postgamma
namespace Wasm

open Text (Bytes)
open LittleEndian (u32 getUint32)

namespace ArchiveDecoder

/-- A number of frames and then the end. -/
def drain (sha : Sha256) : ℕ → ArchiveDecoder → Except ArchiveError (List Bytes)
  | 0, decoder => do
      let _ ← decoder.finish
      return []
  | count + 1, decoder => do
      let (payload, next) ← decoder.frame sha
      let payloads ← drain sha count next
      return payload :: payloads

/-- The loop of `loadDataDir`, with the records that it hands to the worker. -/
def records (sha : Sha256) (decoder : ArchiveDecoder) : Except ArchiveError (List Bytes) :=
  match _returned : decoder.frame sha with
  | .error error => .error error
  | .ok (record, next) =>
      if record.length < 4 then .error .invalidRecord
      else if getUint32 record 0 = 0 then do
        let _ ← next.finish
        return [record]
      else do
        let rest ← records sha next
        return record :: rest
termination_by decoder.remaining.length
decreasing_by exact frame_shrinks _returned

end ArchiveDecoder

/-- What `loadDataDir` reads from its source. -/
def loadDataDir (sha : Sha256) (archiveHeader : Bytes) (source : List Bytes) :
    Except ArchiveError (List Bytes) := do
  let (header, decoder) ← (ArchiveDecoder.create source).frame sha
  if header ≠ archiveHeader then throw .identityMismatch
  else decoder.records sha

/-- Records of which exactly the last one begins with a zero word. -/
inductive Records : List Bytes → Prop where
  | last {record : Bytes} (enough : 4 ≤ record.length) (zero : getUint32 record 0 = 0) :
      Records [record]
  | next {record : Bytes} {records : List Bytes} (enough : 4 ≤ record.length)
      (nonzero : getUint32 record 0 ≠ 0) (rest : Records records) : Records (record :: records)

/-- The payloads of a whole archive. -/
def Complete (archiveHeader : Bytes) (payloads : List Bytes) : Prop :=
  ∃ records, payloads = archiveHeader :: records ∧ Records records

theorem Records.eq_of_prefix {first second : List Bytes} (records : Records first)
    (others : Records second) (front : first <+: second) : first = second := by
  induction records generalizing second with
  | last enough zero =>
      cases others with
      | last => exact List.cons_prefix_cons.mp front |>.1 ▸ rfl
      | next _ nonzero rest =>
          obtain ⟨rfl, -⟩ := List.cons_prefix_cons.mp front
          exact absurd zero nonzero
  | next enough nonzero rest induction =>
      cases others with
      | last _ zero =>
          obtain ⟨rfl, -⟩ := List.cons_prefix_cons.mp front
          exact absurd zero nonzero
      | next _ _ tail =>
          obtain ⟨rfl, rest⟩ := List.cons_prefix_cons.mp front
          rw [induction tail rest]

theorem Complete.eq_of_prefix {archiveHeader : Bytes} {first second : List Bytes}
    (complete : Complete archiveHeader first) (other : Complete archiveHeader second)
    (front : first <+: second) : first = second := by
  obtain ⟨records, rfl, complete⟩ := complete
  obtain ⟨others, rfl, other⟩ := other
  rw [complete.eq_of_prefix other (List.cons_prefix_cons.mp front).2]

variable {sha : Sha256}

variable {payloads : List Bytes}

/-- The frames of an encoding come back in order, and then the end. -/
theorem drain_frames {decoder : ArchiveDecoder} (sized : ∀ payload ∈ payloads, Sized payload)
    (there : decoder.remaining = framesBytes sha decoder.previous payloads) :
    decoder.drain sha payloads.length = .ok payloads := by
  induction payloads generalizing decoder with
  | nil =>
      obtain ⟨next, finished⟩ := decoder.finish_iff.mpr there
      simp [ArchiveDecoder.drain, finished, bind, Except.bind, pure, Except.pure]
  | cons payload payloads induction =>
      rw [List.forall_mem_cons] at sized
      obtain ⟨next, taken, remains, previous⟩ := ArchiveDecoder.frame_ok sha sized.1 there
      have rest := induction sized.2 (remains.trans (by rw [previous]))
      simp [ArchiveDecoder.drain, taken, rest, bind, Except.bind, pure, Except.pure]

/-- The loop of the loader after a frame. -/
theorem records_step {decoder next : ArchiveDecoder} {record : Bytes}
    (taken : decoder.frame sha = .ok (record, next)) :
    decoder.records sha =
      if record.length < 4 then .error .invalidRecord
      else if getUint32 record 0 = 0 then next.finish.bind fun _ => .ok [record]
      else (next.records sha).bind fun rest => .ok (record :: rest) := by
  rw [ArchiveDecoder.records]
  split
  · rename_i error failed
    rw [taken] at failed
    cases failed
  · rename_i other following returned
    rw [taken] at returned
    obtain ⟨rfl, rfl⟩ := Prod.mk.inj (Except.ok.inj returned)
    rfl

/-- The loop of the loader completes on the encodings of whole record lists. -/
theorem records_ok {decoder : ArchiveDecoder} {records : List Bytes}
    (whole : Records records) (sized : ∀ record ∈ records, Sized record)
    (there : decoder.remaining = framesBytes sha decoder.previous records) :
    decoder.records sha = .ok records := by
  induction whole generalizing decoder with
  | last enough zero =>
      obtain ⟨next, taken, remains, -⟩ :=
        ArchiveDecoder.frame_ok sha (sized _ List.mem_cons_self) there
      obtain ⟨ended, finished⟩ := next.finish_iff.mpr remains
      rw [records_step taken, if_neg (Nat.not_lt.mpr enough), if_pos zero, finished]
      rfl
  | next enough nonzero rest induction =>
      rw [List.forall_mem_cons] at sized
      obtain ⟨next, taken, remains, previous⟩ := ArchiveDecoder.frame_ok sha sized.1 there
      rw [records_step taken, if_neg (Nat.not_lt.mpr enough), if_neg nonzero,
        induction sized.2 (remains.trans (by rw [previous]))]
      rfl

/-- The loop of the loader completes on nothing else. -/
theorem records_inv {decoder : ArchiveDecoder} {records : List Bytes}
    (completed : decoder.records sha = .ok records) :
    Records records ∧ (∀ record ∈ records, Sized record) ∧
      decoder.remaining = framesBytes sha decoder.previous records := by
  induction length : decoder.remaining.length using Nat.strong_induction_on
    generalizing decoder records with
  | h size induction =>
      cases taken : decoder.frame sha with
      | error error =>
          rw [ArchiveDecoder.records] at completed
          split at completed
          · cases completed
          · rename_i other following returned
            rw [taken] at returned
            cases returned
      | ok result =>
          obtain ⟨record, next⟩ := result
          obtain ⟨sized, previous, there⟩ := ArchiveDecoder.frame_inv taken
          have shrinks := ArchiveDecoder.frame_shrinks taken
          rw [records_step taken] at completed
          split_ifs at completed with short zero
          · cases finished : next.finish with
            | error error =>
                rw [finished] at completed
                cases completed
            | ok ended =>
                rw [finished] at completed
                obtain rfl := Except.ok.inj completed
                have nothing := next.finish_iff.mp ⟨ended, finished⟩
                refine ⟨.last (Nat.not_lt.mp short) zero, by simpa using sized, ?_⟩
                rw [there, nothing, previous]
                rfl
          · cases others : next.records sha with
            | error error =>
                rw [others] at completed
                cases completed
            | ok rest =>
                rw [others] at completed
                obtain rfl := Except.ok.inj completed
                obtain ⟨whole, restSized, remains⟩ := induction _ (length ▸ shrinks) others rfl
                refine ⟨.next (Nat.not_lt.mp short) zero whole, ?_, ?_⟩
                · exact List.forall_mem_cons.mpr ⟨sized, restSized⟩
                · rw [there, remains, previous]
                  rfl

/-- The loader completes on the encodings of whole archives, and on nothing else. -/
theorem loadDataDir_iff {archiveHeader : Bytes} {source records : List Bytes} :
    loadDataDir sha archiveHeader source = .ok records ↔
      Complete archiveHeader (archiveHeader :: records) ∧
        ArchiveEncoder.create.frames sha (archiveHeader :: records) = .ok source.flatten := by
  have start : (ArchiveDecoder.create source).remaining = source.flatten := rfl
  rw [frames_eq_ok_iff]
  constructor
  · intro completed
    cases taken : (ArchiveDecoder.create source).frame sha with
    | error error =>
        simp only [loadDataDir, taken, bind, Except.bind] at completed
        cases completed
    | ok result =>
        obtain ⟨header, next⟩ := result
        obtain ⟨sized, previous, there⟩ := ArchiveDecoder.frame_inv taken
        simp only [loadDataDir, taken, bind, Except.bind] at completed
        split_ifs at completed with different
        obtain rfl := not_not.mp different
        obtain ⟨whole, restSized, remains⟩ := records_inv completed
        refine ⟨⟨records, rfl, whole⟩, List.forall_mem_cons.mpr ⟨sized, restSized⟩, ?_⟩
        rw [← start, there, remains, previous]
        rfl
  · rintro ⟨⟨others, same, whole⟩, sized, bytes⟩
    obtain rfl := (List.cons.inj same).2
    rw [List.forall_mem_cons] at sized
    obtain ⟨next, taken, remains, previous⟩ :=
      ArchiveDecoder.frame_ok sha sized.1 (start.trans bytes)
    simp only [loadDataDir, taken, bind, Except.bind]
    rw [if_neg (not_not.mpr rfl)]
    exact records_ok whole sized.2 (remains.trans (by rw [previous]; rfl))

/-- A frame as its stored digest and its payload. -/
structure StoredFrame where
  stored : Bytes
  payload : Bytes

/-- The frame has the lengths of a frame of the encoder. -/
structure StoredFrame.Formed (frame : StoredFrame) : Prop where
  stored : frame.stored.length = 32
  payload : Sized frame.payload

/-- The bytes of a list of frames, whatever their digests are. -/
def rawFrames (frames : List StoredFrame) : Bytes :=
  frames.flatMap fun frame => frameBytes frame.stored frame.payload

def storedFrames (sha : Sha256) : Bytes → List Bytes → List StoredFrame
  | _, [] => []
  | previous, payload :: payloads =>
      { stored := sha.digest previous payload, payload } ::
        storedFrames sha (sha.digest previous payload) payloads

theorem framesBytes_eq (sha : Sha256) (previous : Bytes) (payloads : List Bytes) :
    framesBytes sha previous payloads = rawFrames (storedFrames sha previous payloads) := by
  induction payloads generalizing previous with
  | nil => rfl
  | cons payload payloads induction =>
      rw [framesBytes, induction, storedFrames, rawFrames, rawFrames, List.flatMap_cons]

theorem storedFrames_payloads (sha : Sha256) (previous : Bytes) (payloads : List Bytes) :
    (storedFrames sha previous payloads).map StoredFrame.payload = payloads := by
  induction payloads generalizing previous with
  | nil => rfl
  | cons payload payloads induction => rw [storedFrames, List.map_cons, induction]

theorem storedFrames_formed {sha : Sha256} {previous : Bytes} {payloads : List Bytes}
    (sized : ∀ payload ∈ payloads, Sized payload) :
    ∀ frame ∈ storedFrames sha previous payloads, frame.Formed := by
  induction payloads generalizing previous with
  | nil => simp [storedFrames]
  | cons payload payloads induction =>
      rw [List.forall_mem_cons] at sized
      exact List.forall_mem_cons.mpr ⟨⟨sha.length _, sized.1⟩, induction sized.2⟩

/-- Each stored digest stands for the payloads up to its frame. -/
theorem stored_eq_chain {previous : Bytes}
    {frame : StoredFrame} (member : frame ∈ storedFrames sha previous payloads) :
    ∃ count, frame.stored = sha.chain previous (payloads.take count) := by
  induction payloads generalizing previous with
  | nil => cases member
  | cons payload payloads induction =>
      rcases List.mem_cons.mp member with rfl | later
      · exact ⟨1, rfl⟩
      · obtain ⟨count, stored⟩ := induction later
        exact ⟨count + 1, stored⟩

/-- The last stored digest stands for all payloads. -/
theorem last_stored {previous : Bytes} {frame : StoredFrame}
    (last : (storedFrames sha previous payloads).getLast? = some frame) :
    frame.stored = sha.chain previous payloads := by
  induction payloads generalizing previous with
  | nil => cases last
  | cons payload payloads induction =>
      cases payloads with
      | nil =>
          obtain rfl := Option.some.inj last
          rfl
      | cons second payloads => exact induction last

theorem frameBytes_prefix {frame other : StoredFrame} (formed : frame.Formed)
    (otherFormed : other.Formed) {rest tail : Bytes}
    (front : frameBytes frame.stored frame.payload ++ rest <+:
      frameBytes other.stored other.payload ++ tail) : frame = other ∧ rest <+: tail := by
  obtain ⟨more, same⟩ := front
  simp only [frameBytes, List.append_assoc] at same
  have sizes : frame.payload.length = other.payload.length := by
    have small : frame.payload.length < 2 ^ 32 := formed.payload.2.trans_lt (by decide)
    have otherSmall : other.payload.length < 2 ^ 32 := otherFormed.payload.2.trans_lt (by decide)
    have words := congrArg (fun bytes => getUint32 bytes 0) same
    simp only [LittleEndian.getUint32_u32 small, LittleEndian.getUint32_u32 otherSmall] at words
    exact words
  rw [sizes, List.append_cancel_left_eq] at same
  obtain ⟨stored, same⟩ := List.append_inj same (formed.stored.trans otherFormed.stored.symm)
  obtain ⟨payload, same⟩ := List.append_inj same sizes
  refine ⟨?_, more, same⟩
  cases frame
  cases other
  exact congrArg₂ StoredFrame.mk stored payload

theorem rawFrames_initial {first second : List StoredFrame} (formed : ∀ frame ∈ first, frame.Formed)
    (otherFormed : ∀ frame ∈ second, frame.Formed) (front : rawFrames first <+: rawFrames second) :
    first <+: second := by
  induction first generalizing second with
  | nil => exact List.nil_prefix
  | cons frame first induction =>
      rw [List.forall_mem_cons] at formed
      cases second with
      | nil =>
          have lengths := front.length_le
          simp only [rawFrames, List.flatMap_cons, List.flatMap_nil, frameBytes, List.length_append,
            LittleEndian.u32_length, List.length_nil] at lengths
          omega
      | cons other second =>
          rw [List.forall_mem_cons] at otherFormed
          obtain ⟨rfl, rest⟩ := frameBytes_prefix formed.1 otherFormed.1 front
          exact List.cons_prefix_cons.mpr ⟨rfl, induction formed.2 otherFormed.2 rest⟩

/-- The digest in front of the first frame. -/
def noDigest : Bytes := List.replicate 32 0

/-- The digests tell the lists of payloads in front of a frame of either archive apart. -/
def Separated (sha : Sha256) (first second : List Bytes) : Prop :=
  ∀ count other, sha.chain noDigest (first.take count) = sha.chain noDigest (second.take other) →
    first.take count = second.take other

/-- The loader fails on the bytes, however they are cut into chunks. -/
def Rejected (sha : Sha256) (archiveHeader bytes : Bytes) : Prop :=
  ∀ source : List Bytes, source.flatten = bytes →
    ∃ error, loadDataDir sha archiveHeader source = .error error

theorem rejected_iff {archiveHeader bytes : Bytes} :
    Rejected sha archiveHeader bytes ↔ ∀ payloads, Complete archiveHeader payloads →
      ArchiveEncoder.create.frames sha payloads ≠ .ok bytes := by
  constructor
  · rintro rejected payloads ⟨records, rfl, whole⟩ encoded
    obtain ⟨error, failed⟩ := rejected [bytes] List.flatten_singleton
    have flat : ArchiveEncoder.create.frames sha (archiveHeader :: records) =
        .ok [bytes].flatten := by rw [List.flatten_singleton, encoded]
    have completed := loadDataDir_iff.mpr ⟨⟨records, rfl, whole⟩, flat⟩
    rw [failed] at completed
    cases completed
  · rintro none source rfl
    cases outcome : loadDataDir sha archiveHeader source with
    | error error => exact ⟨error, rfl⟩
    | ok records =>
        obtain ⟨complete, encoded⟩ := loadDataDir_iff.mp outcome
        exact absurd encoded (none _ complete)

/-- Two encodings of which one begins the other are the same. -/
theorem encoding_eq_of_prefix {archiveHeader first second : Bytes}
    {payloads others : List Bytes} (complete : Complete archiveHeader payloads)
    (otherComplete : Complete archiveHeader others)
    (encoded : ArchiveEncoder.create.frames sha payloads = .ok first)
    (otherEncoded : ArchiveEncoder.create.frames sha others = .ok second)
    (front : first <+: second) : payloads = others := by
  obtain ⟨sized, rfl⟩ := frames_eq_ok_iff.mp encoded
  obtain ⟨otherSized, rfl⟩ := frames_eq_ok_iff.mp otherEncoded
  rw [framesBytes_eq, framesBytes_eq] at front
  have frames := rawFrames_initial (storedFrames_formed sized) (storedFrames_formed otherSized) front
  have lists := frames.map StoredFrame.payload
  rw [storedFrames_payloads, storedFrames_payloads] at lists
  exact complete.eq_of_prefix otherComplete lists

/-- A part of an archive that lacks its end is rejected. -/
theorem truncated_rejected {archiveHeader bytes cut : Bytes}
    (complete : Complete archiveHeader payloads)
    (encoded : ArchiveEncoder.create.frames sha payloads = .ok bytes) (front : cut <+: bytes)
    (proper : cut ≠ bytes) : Rejected sha archiveHeader cut := by
  refine rejected_iff.mpr fun others otherComplete otherEncoded => proper ?_
  obtain rfl := encoding_eq_of_prefix otherComplete complete otherEncoded encoded front
  exact Except.ok.inj (otherEncoded.symm.trans encoded)

/-- A list of frames whose last digest is stored in an archive is rejected when it is another one. -/
theorem altered_rejected {archiveHeader bytes : Bytes}
    {frames : List StoredFrame} (complete : Complete archiveHeader payloads)
    (encoded : ArchiveEncoder.create.frames sha payloads = .ok bytes)
    (formed : ∀ frame ∈ frames, frame.Formed)
    (kept : ∀ last ∈ frames.getLast?,
      ∃ frame ∈ storedFrames sha noDigest payloads, frame.stored = last.stored)
    (separated : Separated sha payloads (frames.map StoredFrame.payload))
    (altered : rawFrames frames ≠ bytes) : Rejected sha archiveHeader (rawFrames frames) := by
  refine rejected_iff.mpr fun others otherComplete otherEncoded => altered ?_
  obtain ⟨otherSized, same⟩ := frames_eq_ok_iff.mp otherEncoded
  have start : ArchiveEncoder.create.previous = noDigest := rfl
  rw [framesBytes_eq, start] at same
  have otherFormed := @storedFrames_formed sha noDigest _ otherSized
  have equal : frames = storedFrames sha noDigest others :=
    (rawFrames_initial formed otherFormed ⟨[], by rw [List.append_nil, same]⟩).eq_of_length_le
      (rawFrames_initial otherFormed formed ⟨[], by rw [List.append_nil, same]⟩).length_le
  have lists : frames.map StoredFrame.payload = others := by
    rw [equal, storedFrames_payloads]
  rw [lists] at separated
  have nonempty : frames ≠ [] := by
    obtain ⟨records, rfl, -⟩ := otherComplete
    rw [equal]
    exact List.cons_ne_nil _ _
  have last := List.getLast?_eq_some_getLast nonempty
  obtain ⟨frame, member, digest⟩ := kept _ last
  obtain ⟨count, stored⟩ := stored_eq_chain member
  have whole : (frames.getLast nonempty).stored = sha.chain noDigest others :=
    last_stored (equal ▸ last)
  have prefixes := separated count others.length
    (by rw [List.take_length, ← whole, ← digest, stored])
  rw [List.take_length] at prefixes
  obtain rfl := otherComplete.eq_of_prefix complete (prefixes ▸ List.take_prefix _ _)
  exact Except.ok.inj (otherEncoded.symm.trans encoded)

/-- However an encoding is cut into chunks, the decoder returns its payloads and then the end. The
loader fails on every part of a whole archive that lacks its end, on every other list of frames
whose last digest is stored in the archive, and on every stream that encodes no whole archive. -/
theorem archive_frames {sha : Sha256} {archiveHeader bytes : Bytes} {payloads : List Bytes}
    (encoded : ArchiveEncoder.create.frames sha payloads = .ok bytes) :
    (∀ source : List Bytes, source.flatten = bytes →
      (ArchiveDecoder.create source).drain sha payloads.length = .ok payloads) ∧
    (Complete archiveHeader payloads →
      (∀ source : List Bytes, source.flatten = bytes →
        loadDataDir sha archiveHeader source = .ok payloads.tail) ∧
      (∀ cut, cut <+: bytes → cut ≠ bytes → Rejected sha archiveHeader cut) ∧
      (∀ frames : List StoredFrame, (∀ frame ∈ frames, frame.Formed) →
        (∀ last ∈ frames.getLast?,
          ∃ frame ∈ storedFrames sha noDigest payloads, frame.stored = last.stored) →
        Separated sha payloads (frames.map StoredFrame.payload) → rawFrames frames ≠ bytes →
        Rejected sha archiveHeader (rawFrames frames)) ∧
      ∀ other, ¬Rejected sha archiveHeader other → ∃ others, Complete archiveHeader others ∧
        ArchiveEncoder.create.frames sha others = .ok other) := by
  obtain ⟨sized, start⟩ := frames_eq_ok_iff.mp encoded
  constructor
  · rintro source rfl
    exact drain_frames sized start
  · intro complete
    refine ⟨?_, ?_, ?_, ?_⟩
    · rintro source rfl
      obtain ⟨records, rfl, whole⟩ := complete
      exact loadDataDir_iff.mpr ⟨⟨records, rfl, whole⟩, encoded⟩
    · intro cut front proper
      exact truncated_rejected complete encoded front proper
    · intro frames formed kept separated altered
      exact altered_rejected complete encoded formed kept separated altered
    · intro other accepted
      rw [rejected_iff] at accepted
      push Not at accepted
      exact accepted

/-- The SHA-256 of thirty-two zeros and a one. -/
def headerDigest : Bytes :=
  [0x1f, 0xd4, 0x24, 0x74, 0x43, 0xc9, 0x44, 0x0c, 0xb3, 0xc4, 0x8c,
    0x28, 0x85, 0x19, 0x37, 0x19, 0x6b, 0xc1, 0x56, 0x03, 0x2d, 0x70,
    0xa9, 0x6c, 0x98, 0xe1, 0x27, 0xec, 0xb3, 0x47, 0xe4, 0x5f]

/-- The SHA-256 of this digest and four zeros. -/
def recordDigest : Bytes :=
  [0x5b, 0x12, 0xc9, 0x4e, 0x93, 0xfb, 0x8d, 0x3c, 0x32, 0x6f, 0x16,
    0xd8, 0xc1, 0x56, 0xcc, 0x01, 0xa7, 0xa6, 0x67, 0x30, 0x6f, 0x0f,
    0xc9, 0x0f, 0x28, 0x60, 0xe8, 0xd0, 0x80, 0xed, 0x7a, 0x15]

/-- The SHA-256 of the first digest and five zeros. -/
def replacedDigest : Bytes :=
  [0x0e, 0x80, 0x28, 0xb8, 0x15, 0x1e, 0x89, 0x87, 0x31, 0xbf, 0x79,
    0xfc, 0x4b, 0x58, 0xc8, 0x18, 0x51, 0x4f, 0xed, 0xfa, 0x71, 0x4f,
    0x99, 0x69, 0x5a, 0xa6, 0x81, 0x4a, 0x77, 0xf4, 0x6c, 0xbd]

/-- SHA-256 where the archives below need it. -/
def tabulated : Sha256 where
  hash bytes :=
    if bytes = noDigest ++ [1] then headerDigest
    else if bytes = headerDigest ++ [0, 0, 0, 0] then recordDigest
    else if bytes = headerDigest ++ [0, 0, 0, 0, 0] then replacedDigest
    else noDigest
  length bytes := by split_ifs <;> rfl

theorem smallArchive_encoded :
    ArchiveEncoder.create.frames tabulated [[1], [0, 0, 0, 0]] =
      .ok (framesBytes tabulated noDigest [[1], [0, 0, 0, 0]]) := by
  refine frames_eq_ok_iff.mpr ⟨?_, rfl⟩
  simp [Sized, archiveRecordLimit]

theorem smallArchive_complete : Complete [1] [[1], [0, 0, 0, 0]] :=
  ⟨_, rfl, .last (by decide) (by decide)⟩

theorem archive_frames_small :
    loadDataDir tabulated [1] [framesBytes tabulated noDigest [[1], [0, 0, 0, 0]]] =
        .ok [[0, 0, 0, 0]] ∧
      Rejected tabulated [1] [] := by
  obtain ⟨-, archive⟩ := @archive_frames tabulated [1] _ _ smallArchive_encoded
  obtain ⟨loaded, truncated, -, -⟩ := archive smallArchive_complete
  exact ⟨loaded _ List.flatten_singleton, truncated [] List.nil_prefix (by decide)⟩

/-- An archive whose last frame was replaced together with its digest is accepted, although the
digests tell the two archives apart. -/
theorem replaced_frame_accepted :
    Complete [1] [[1], [0, 0, 0, 0]] ∧
      Separated tabulated [[1], [0, 0, 0, 0]] [[1], [0, 0, 0, 0, 0]] ∧
      rawFrames (storedFrames tabulated noDigest [[1], [0, 0, 0, 0, 0]]) ≠
        rawFrames (storedFrames tabulated noDigest [[1], [0, 0, 0, 0]]) ∧
      loadDataDir tabulated [1]
        [rawFrames (storedFrames tabulated noDigest [[1], [0, 0, 0, 0, 0]])] =
          .ok [[0, 0, 0, 0, 0]] := by
  refine ⟨smallArchive_complete, ?_, by decide, ?_⟩
  · intro count other same
    match count, other with
    | 0, 0 => rfl
    | 0, 1 => exact absurd same (by decide)
    | 0, other + 2 => exact absurd same (by simp; decide)
    | 1, 0 => exact absurd same (by decide)
    | 1, 1 => rfl
    | 1, other + 2 => exact absurd same (by simp; decide)
    | count + 2, 0 => exact absurd same (by simp; decide)
    | count + 2, 1 => exact absurd same (by simp; decide)
    | count + 2, other + 2 => exact absurd same (by simp; decide)
  · refine loadDataDir_iff.mpr ⟨⟨_, rfl, .last (by decide) (by decide)⟩, frames_eq_ok_iff.mpr ⟨?_, ?_⟩⟩
    · simp [Sized, archiveRecordLimit]
    · rw [List.flatten_singleton, framesBytes_eq]
      rfl

end Wasm
end Postgamma
