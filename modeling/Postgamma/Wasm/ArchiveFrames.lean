import Mathlib.Tactic
import Postgamma.Library.Text
import Postgamma.Library.LittleEndian

/-!
# The frames of a database archive

A frame is the length of a payload, a digest and the payload. Each digest covers the digest of the
frame in front and the payload, so that it stands for the whole list of payloads up to its frame.
The decoder takes frames from a stream of chunks, however the stream is cut.
-/

namespace Postgamma
namespace Wasm

open Text (Bytes)
open LittleEndian (u32 getUint32)

def archiveRecordLimit : ℕ := 256 * 1024 + 8192

/-- The errors of the archive reader and of `loadDataDir`. -/
inductive ArchiveError where
  | invalidRecordSize
  | truncated
  | checksumMismatch
  | trailingData
  | identityMismatch
  | invalidRecord
  deriving DecidableEq, Repr

/-- The hash function of the platform. -/
structure Sha256 where
  hash : Bytes → Bytes
  length : ∀ bytes, (hash bytes).length = 32

def Sha256.digest (sha : Sha256) (previous payload : Bytes) : Bytes := sha.hash (previous ++ payload)

/-- `ArchiveEncoder`. -/
structure ArchiveEncoder where
  previous : Bytes

def ArchiveEncoder.create : ArchiveEncoder := { previous := List.replicate 32 0 }

def ArchiveEncoder.frame (sha : Sha256) (encoder : ArchiveEncoder) (payload : Bytes) :
    Except ArchiveError (Bytes × ArchiveEncoder) :=
  if payload.length = 0 ∨ archiveRecordLimit < payload.length then .error .invalidRecordSize
  else
    let previous := sha.digest encoder.previous payload
    .ok (u32 payload.length ++ (previous ++ payload), { previous })

/-- The encoder accepts the payload. -/
def Sized (payload : Bytes) : Prop := payload.length ≠ 0 ∧ payload.length ≤ archiveRecordLimit

def frameBytes (stored payload : Bytes) : Bytes := u32 payload.length ++ (stored ++ payload)

/-- The frames of a list of payloads, one behind the other. -/
def ArchiveEncoder.frames (sha : Sha256) : ArchiveEncoder → List Bytes → Except ArchiveError Bytes
  | _, [] => .ok []
  | encoder, payload :: payloads => do
      let (bytes, next) ← encoder.frame sha payload
      let rest ← frames sha next payloads
      return bytes ++ rest

/-- `ArchiveDecoder` with the chunks that its source still yields. -/
structure ArchiveDecoder where
  source : List Bytes
  previous : Bytes
  chunk : Bytes
  offset : ℕ
  ended : Bool
  inside : offset ≤ chunk.length

namespace ArchiveDecoder

/-- A decoder of a stream of chunks. -/
def create (source : List Bytes) : ArchiveDecoder :=
  { source, previous := List.replicate 32 0, chunk := [], offset := 0, ended := false
    inside := Nat.le_refl 0 }

/-- The next chunk of the source becomes the current one. -/
def pull (decoder : ArchiveDecoder) (next : Bytes) (source : List Bytes) : ArchiveDecoder :=
  { decoder with source, chunk := next, offset := 0, inside := Nat.zero_le _ }

/-- How many of the wanted bytes the current chunk still has. -/
def portion (decoder : ArchiveDecoder) (wanted : ℕ) : ℕ :=
  min wanted (decoder.chunk.length - decoder.offset)

/-- A portion of the current chunk is consumed. -/
def advance (decoder : ArchiveDecoder) (wanted : ℕ) : ArchiveDecoder :=
  { decoder with
    offset := decoder.offset + decoder.portion wanted
    inside := by have inside := decoder.inside; unfold portion; omega }

/-- The loop of `read`, with the bytes that it already has. -/
def readFrom (decoder : ArchiveDecoder) (size : ℕ) (eof : Bool) (bytes : Bytes) :
    Except ArchiveError (Option Bytes × ArchiveDecoder) :=
  if bytes.length < size then
    if decoder.offset = decoder.chunk.length then
      match _pulled : decoder.source with
      | [] =>
          if bytes = [] ∧ eof = true then .ok (none, { decoder with ended := true })
          else .error .truncated
      | next :: source => readFrom (decoder.pull next source) size eof bytes
    else
      readFrom (decoder.advance (size - bytes.length)) size eof
        (bytes ++ (decoder.chunk.drop decoder.offset).take (decoder.portion (size - bytes.length)))
  else .ok (some bytes, decoder)
termination_by (decoder.source.length, size - bytes.length)
decreasing_by
  · simp only [pull, _pulled, List.length_cons]
    exact Prod.Lex.left _ _ (Nat.lt_succ_self _)
  · have inside := decoder.inside
    refine Prod.Lex.right _ ?_
    simp only [List.length_append, List.length_take, List.length_drop, portion]
    omega

def read (decoder : ArchiveDecoder) (size : ℕ) (eof : Bool) :
    Except ArchiveError (Option Bytes × ArchiveDecoder) :=
  decoder.readFrom size eof []

/-- `frame`. A read that does not accept the end returns bytes. -/
def frame (sha : Sha256) (decoder : ArchiveDecoder) : Except ArchiveError (Bytes × ArchiveDecoder) := do
  let (header, decoder) ← decoder.read 36 false
  let header := header.getD []
  let size := getUint32 header 0
  if size = 0 ∨ archiveRecordLimit < size then throw .invalidRecordSize
  else do
    let (payload, decoder) ← decoder.read size false
    let payload := payload.getD []
    let previous := sha.digest decoder.previous payload
    if (List.range previous.length).all fun i => previous[i]? == header[i + 4]? then
      return (payload, { decoder with previous })
    else throw .checksumMismatch

/-- `end`. -/
def finish (decoder : ArchiveDecoder) : Except ArchiveError ArchiveDecoder := do
  match ← decoder.read 1 true with
  | (some _, _) => throw .trailingData
  | (none, decoder) => return decoder

/-- The bytes that the decoder has not returned yet. -/
def remaining (decoder : ArchiveDecoder) : Bytes :=
  decoder.chunk.drop decoder.offset ++ decoder.source.flatten

variable {decoder : ArchiveDecoder}

theorem remaining_spent (spent : decoder.offset = decoder.chunk.length)
    (pulled : decoder.source = []) : decoder.remaining = [] := by
  simp [remaining, spent, pulled]

theorem remaining_pull {next : Bytes} {source : List Bytes}
    (spent : decoder.offset = decoder.chunk.length) (pulled : decoder.source = next :: source) :
    (decoder.pull next source).remaining = decoder.remaining := by
  simp [remaining, pull, spent, pulled]

theorem remaining_advance (decoder : ArchiveDecoder) (wanted : ℕ) :
    decoder.remaining = (decoder.chunk.drop decoder.offset).take (decoder.portion wanted) ++
      (decoder.advance wanted).remaining := by
  rw [remaining, remaining, ← List.append_assoc]
  congr 1
  rw [advance, ← List.drop_drop, List.take_append_drop]

theorem portion_length (decoder : ArchiveDecoder) (wanted : ℕ) :
    ((decoder.chunk.drop decoder.offset).take (decoder.portion wanted)).length =
      decoder.portion wanted := by
  rw [List.length_take, List.length_drop, portion]
  omega

/-- A read of bytes that are there returns them. -/
theorem readFrom_enough {size : ℕ} {eof : Bool} {bytes head rest : Bytes}
    (there : decoder.remaining = head ++ rest) (exact : bytes.length + head.length = size) :
    ∃ next, decoder.readFrom size eof bytes = .ok (some (bytes ++ head), next) ∧
      next.remaining = rest ∧ next.previous = decoder.previous := by
  fun_induction readFrom decoder size eof bytes generalizing head with
  | case1 decoder bytes less spent pulled =>
      rw [remaining_spent spent pulled] at there
      obtain ⟨rfl, -⟩ := List.append_eq_nil_iff.mp there.symm
      simp only [List.length_nil] at exact
      omega
  | case2 decoder bytes less spent pulled =>
      rw [remaining_spent spent pulled] at there
      obtain ⟨rfl, -⟩ := List.append_eq_nil_iff.mp there.symm
      simp only [List.length_nil] at exact
      omega
  | case3 decoder bytes less spent next source pulled induction =>
      exact induction (remaining_pull spent pulled ▸ there) exact
  | case4 decoder bytes less left induction =>
      have taken := portion_length decoder (size - bytes.length)
      have most : decoder.portion (size - bytes.length) ≤ size - bytes.length := Nat.min_le_left _ _
      rw [remaining_advance decoder (size - bytes.length)] at there
      obtain ⟨tail, rfl⟩ := List.prefix_of_prefix_length_le ⟨_, there⟩ ⟨rest, rfl⟩ (by omega)
      rw [List.append_assoc, List.append_cancel_left_eq] at there
      simp only [List.length_append] at exact
      rw [← List.append_assoc]
      exact induction there (by rw [List.length_append]; omega)
  | case5 decoder bytes full =>
      obtain rfl := List.eq_nil_of_length_eq_zero (by omega : head.length = 0)
      exact ⟨decoder, by rw [List.append_nil], there, rfl⟩

/-- A read of more bytes than there are fails, unless it accepts the end and stands there. -/
theorem readFrom_truncated {size : ℕ} {eof : Bool} {bytes : Bytes}
    (short : bytes.length + decoder.remaining.length < size)
    (refused : eof = true → bytes ++ decoder.remaining ≠ []) :
    decoder.readFrom size eof bytes = .error .truncated := by
  fun_induction readFrom decoder size eof bytes with
  | case1 decoder bytes less spent pulled ended =>
      rw [remaining_spent spent pulled, List.append_nil] at refused
      exact absurd ended.1 (refused ended.2)
  | case2 => rfl
  | case3 decoder bytes less spent next source pulled induction =>
      rw [← remaining_pull spent pulled] at short refused
      exact induction short refused
  | case4 decoder bytes less left induction =>
      rw [remaining_advance decoder (size - bytes.length)] at short refused
      rw [List.length_append, ← Nat.add_assoc, ← List.length_append] at short
      exact induction short fun accepted => by rw [List.append_assoc]; exact refused accepted
  | case5 decoder bytes full => omega

theorem readFrom_end {size : ℕ} {eof : Bool} {bytes : Bytes}
    (positive : 0 < size) (empty : decoder.remaining = []) (accepted : eof = true)
    (nothing : bytes = []) : ∃ next, decoder.readFrom size eof bytes = .ok (none, next) := by
  fun_induction readFrom decoder size eof bytes with
  | case1 decoder => exact ⟨_, rfl⟩
  | case2 decoder bytes less spent pulled refused => exact absurd ⟨nothing, accepted⟩ refused
  | case3 decoder bytes less spent next source pulled induction =>
      exact induction ((remaining_pull spent pulled).trans empty) nothing
  | case4 decoder bytes less left induction =>
      rw [remaining_advance decoder (size - bytes.length), List.append_eq_nil_iff] at empty
      exact induction empty.2 (by rw [nothing, List.nil_append]; exact nothing ▸ empty.1)
  | case5 decoder bytes full => simp [nothing, positive] at full

theorem read_bytes {head rest : Bytes} (eof : Bool) (there : decoder.remaining = head ++ rest) :
    ∃ next, decoder.read head.length eof = .ok (some head, next) ∧ next.remaining = rest ∧
      next.previous = decoder.previous :=
  readFrom_enough there (by simp)

theorem read_truncated {size : ℕ}
    (short : decoder.remaining.length < size) : decoder.read size false = .error .truncated :=
  readFrom_truncated (by simpa using short) (by simp)

/-- A read without the end either returns the next bytes or fails. -/
theorem read_cases (decoder : ArchiveDecoder) (size : ℕ) :
    (∃ head rest next, head.length = size ∧ decoder.remaining = head ++ rest ∧
        decoder.read size false = .ok (some head, next) ∧ next.remaining = rest ∧
        next.previous = decoder.previous) ∨
      decoder.read size false = .error .truncated := by
  rcases Nat.lt_or_ge decoder.remaining.length size with short | enough
  · exact .inr (read_truncated short)
  · left
    have length : (decoder.remaining.take size).length = size := by
      rw [List.length_take]
      omega
    have there := (List.take_append_drop size decoder.remaining).symm
    obtain ⟨next, returned, remains, previous⟩ := read_bytes false there
    rw [length] at returned
    exact ⟨_, _, next, length, there, returned, remains, previous⟩

theorem all_match_iff {fresh header : Bytes} (length : fresh.length = 32)
    (enough : header.length = 36) :
    ((List.range fresh.length).all fun i => fresh[i]? == header[i + 4]?) = true ↔
      fresh = header.drop 4 := by
  rw [List.all_eq_true]
  constructor
  · intro same
    refine List.ext_getElem? fun i => ?_
    rw [List.getElem?_drop, Nat.add_comm]
    rcases Nat.lt_or_ge i fresh.length with inside | outside
    · exact eq_of_beq (same i (List.mem_range.mpr inside))
    · rw [List.getElem?_eq_none outside, List.getElem?_eq_none (by omega)]
  · rintro same i -
    rw [same, List.getElem?_drop, Nat.add_comm 4 i]
    exact beq_self_eq_true _

/-- A frame with the right digest is taken off the stream. -/
theorem frame_ok (sha : Sha256) {payload rest : Bytes} (sized : Sized payload)
    (there : decoder.remaining =
      frameBytes (sha.digest decoder.previous payload) payload ++ rest) :
    ∃ next, decoder.frame sha = .ok (payload, next) ∧ next.remaining = rest ∧
      next.previous = sha.digest decoder.previous payload := by
  have digestLength : (sha.digest decoder.previous payload).length = 32 := sha.length _
  have limit : payload.length < 2 ^ 32 := sized.2.trans_lt (by decide)
  have split : decoder.remaining = (u32 payload.length ++ sha.digest decoder.previous payload) ++
      (payload ++ rest) := by
    rw [there, frameBytes]
    simp only [List.append_assoc]
  have headerLength :
      (u32 payload.length ++ sha.digest decoder.previous payload).length = 36 := by
    rw [List.length_append, digestLength, LittleEndian.u32_length]
  obtain ⟨middle, header, left, previous⟩ := read_bytes false split
  obtain ⟨last, body, remains, kept⟩ := read_bytes false left
  rw [headerLength] at header
  rw [previous] at kept
  have size := LittleEndian.getUint32_u32 limit (sha.digest decoder.previous payload)
  refine ⟨{ last with previous := sha.digest decoder.previous payload }, ?_, remains, rfl⟩
  have matched := (all_match_iff digestLength headerLength).mpr rfl
  simp only [frame, header, bind, Except.bind, Option.getD_some, size, body, kept]
  rw [if_neg (not_or.mpr ⟨sized.1, Nat.not_lt.mpr sized.2⟩)]
  simp only [matched, if_true]
  rfl

/-- A frame that is taken off the stream is sized and has the right digest. -/
theorem frame_inv {sha : Sha256} {decoder next : ArchiveDecoder} {payload : Bytes}
    (returned : decoder.frame sha = .ok (payload, next)) :
    Sized payload ∧ next.previous = sha.digest decoder.previous payload ∧
      decoder.remaining = frameBytes next.previous payload ++ next.remaining := by
  rcases read_cases decoder 36 with ⟨header, rest, middle, length, there, read, remains, previous⟩ |
    truncated
  · rcases read_cases middle (getUint32 header 0) with
      ⟨body, tail, last, size, below, taken, left, kept⟩ | truncated
    · simp only [frame, read, bind, Except.bind, Option.getD_some, taken] at returned
      split at returned
      · cases returned
      · rename_i sized
        split at returned
        · rename_i same
          obtain ⟨rfl, rfl⟩ := Prod.mk.inj (Except.ok.inj returned)
          rw [kept, previous] at same ⊢
          have digest : sha.digest decoder.previous body = header.drop 4 :=
            (all_match_iff (sha.length _) length).mp same
          have front := LittleEndian.u32_getUint32 (by omega : 4 ≤ header.length)
          have fits : Sized body := by
            rw [Sized, size]
            exact ⟨(not_or.mp sized).1, Nat.not_lt.mp (not_or.mp sized).2⟩
          refine ⟨fits, rfl, ?_⟩
          change decoder.remaining = frameBytes (sha.digest decoder.previous body) body ++ last.remaining
          rw [there, ← remains, below, left, frameBytes, size, digest, front]
          simp only [← List.append_assoc, List.take_append_drop]
        · cases returned
    · simp only [frame, read, bind, Except.bind, Option.getD_some, truncated] at returned
      split at returned <;> cases returned
  · simp only [frame, truncated, bind, Except.bind] at returned
    cases returned

theorem frame_shrinks {sha : Sha256} {decoder next : ArchiveDecoder} {payload : Bytes}
    (returned : decoder.frame sha = .ok (payload, next)) :
    next.remaining.length < decoder.remaining.length := by
  obtain ⟨-, -, there⟩ := frame_inv returned
  rw [there, frameBytes]
  simp only [List.length_append, LittleEndian.u32_length]
  omega

/-- The end is accepted exactly when nothing is left. -/
theorem finish_iff (decoder : ArchiveDecoder) :
    (∃ next, decoder.finish = .ok next) ↔ decoder.remaining = [] := by
  cases remains : decoder.remaining with
  | nil =>
      obtain ⟨next, returned⟩ := @readFrom_end decoder 1 true [] Nat.one_pos remains rfl rfl
      simp [finish, read, returned, bind, Except.bind, pure, Except.pure]
  | cons byte rest =>
      obtain ⟨next, returned, -⟩ := @read_bytes decoder [byte] rest true remains
      have one : decoder.read 1 true = .ok (some [byte], next) := returned
      simp [finish, one, bind, Except.bind, throw, throwThe, MonadExceptOf.throw]

end ArchiveDecoder

/-- The digest behind a list of payloads. -/
def Sha256.chain (sha : Sha256) (previous : Bytes) (payloads : List Bytes) : Bytes :=
  payloads.foldl sha.digest previous

def framesBytes (sha : Sha256) : Bytes → List Bytes → Bytes
  | _, [] => []
  | previous, payload :: payloads =>
      frameBytes (sha.digest previous payload) payload ++
        framesBytes sha (sha.digest previous payload) payloads

/-- The encoder accepts sized payloads, and only those. -/
theorem frames_eq_ok_iff {sha : Sha256} {encoder : ArchiveEncoder} {payloads : List Bytes}
    {bytes : Bytes} : encoder.frames sha payloads = .ok bytes ↔
      (∀ payload ∈ payloads, Sized payload) ∧
        bytes = framesBytes sha encoder.previous payloads := by
  induction payloads generalizing encoder bytes with
  | nil => simp [ArchiveEncoder.frames, framesBytes, eq_comm]
  | cons payload payloads induction =>
      by_cases sized : Sized payload
      · have accepted : encoder.frame sha payload =
            .ok (frameBytes (sha.digest encoder.previous payload) payload,
              { previous := sha.digest encoder.previous payload }) := by
          rw [ArchiveEncoder.frame, if_neg (not_or.mpr ⟨sized.1, Nat.not_lt.mpr sized.2⟩)]
          rfl
        simp only [ArchiveEncoder.frames, accepted, bind, Except.bind, List.forall_mem_cons, sized,
          true_and, framesBytes]
        constructor
        · intro returned
          split at returned
          · cases returned
          · rename_i rest encoded
            obtain ⟨others, rfl⟩ := induction.mp encoded
            exact ⟨others, (Except.ok.inj returned).symm⟩
        · rintro ⟨others, rfl⟩
          rw [induction.mpr ⟨others, rfl⟩]
          rfl
      · have refused : encoder.frame sha payload = .error .invalidRecordSize := by
          rw [ArchiveEncoder.frame, if_pos]
          by_contra neither
          exact sized ⟨(not_or.mp neither).1, Nat.not_lt.mp (not_or.mp neither).2⟩
        simp [ArchiveEncoder.frames, refused, bind, Except.bind, sized]

end Wasm
end Postgamma
