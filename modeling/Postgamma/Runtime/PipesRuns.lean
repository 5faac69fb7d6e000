import Mathlib
import Postgamma.Runtime.Pipes

/-!
# Runs of the browser platform

What the pipes and semaphores keep over every run: a pipe passes on the accepted bytes in order and
its record is freed once, and a sleeper whose condition holds has a notification on its way.
-/

namespace Postgamma.Runtime

namespace Pipe

/-- A pipe passes on what its writes put into it, and a short write is accepted whole. -/
structure Sound (pipe : Pipe) : Prop where
  bounded : pipe.length ≤ pipeCapacity
  conserved : pipe.taken ++ pipe.queue = pipe.accepted
  whole : ∀ write ∈ pipe.writes, write.accepted <+: write.data ∧
    (write.data.length ≤ pipeCapacity → write.accepted = write.data)

theorem pop_sound {pipe : Pipe} (sound : pipe.Sound) {count : ℕ} (enough : count ≤ pipe.length) :
    (pipe.pop count).Sound where
  bounded := (Nat.sub_le _ _).trans sound.bounded
  conserved := by
    have split : window pipe.bytes pipeCapacity pipe.head count ++ (pipe.pop count).queue =
        pipe.queue := by
      rw [queue, pop, window_drop, window_take pipe.bytes pipeCapacity pipe.head enough,
        List.take_append_drop, queue]
    calc (pipe.pop count).taken ++ (pipe.pop count).queue
        = pipe.taken ++ (window pipe.bytes pipeCapacity pipe.head count ++
            (pipe.pop count).queue) := by rw [← List.append_assoc]; rfl
      _ = pipe.accepted := by rw [split, sound.conserved]
  whole := sound.whole

theorem copied_le (pipe : Pipe) (size : ℕ) :
    pipe.copied size ≤ size ∧ pipe.copied size ≤ pipeCapacity - pipe.length := by
  simp only [copied]
  split
  · exact ⟨Nat.zero_le _, Nat.zero_le _⟩
  · exact ⟨Nat.min_le_left _ _, Nat.min_le_right _ _⟩

theorem copied_eq {pipe : Pipe} {size : ℕ} (some : pipe.copied size ≠ 0)
    (short : size ≤ pipeCapacity) : pipe.copied size = size := by
  simp only [copied] at some ⊢
  split at some
  · exact absurd rfl some
  · rename_i room
    rw [if_neg room]
    omega

theorem push_sound {pipe : Pipe} (sound : pipe.Sound) {data : List UInt8}
    (some : pipe.copied data.length ≠ 0) :
    (pipe.push data (pipe.copied data.length)).Sound := by
  obtain ⟨short, room⟩ := pipe.copied_le data.length
  have bounded := sound.bounded
  have size : (data.take (pipe.copied data.length)).length = pipe.copied data.length := by
    rw [List.length_take, Nat.min_eq_left short]
  refine ⟨?_, ?_, ?_⟩
  · show pipe.length + pipe.copied data.length ≤ pipeCapacity
    omega
  · have queued : (pipe.push data (pipe.copied data.length)).queue =
        pipe.queue ++ data.take (pipe.copied data.length) := by
      have pushed := @window_pushAll _ pipeCapacity pipe.head pipe.length pipe.bytes
        (data.take (pipe.copied data.length)) (by rw [size]; omega)
      rw [size] at pushed
      exact pushed
    have accepted : (pipe.push data (pipe.copied data.length)).accepted =
        pipe.accepted ++ data.take (pipe.copied data.length) := by
      simp [accepted, push]
    rw [queued, accepted, ← List.append_assoc]
    exact congrArg (· ++ _) sound.conserved
  · intro write member
    obtain old | new := List.mem_append.1 member
    · exact sound.whole write old
    · rw [List.mem_singleton.1 new]
      refine ⟨List.take_prefix _ _, fun fits => ?_⟩
      exact List.take_of_length_le (copied_eq some fits).ge

end Pipe

namespace Pipes

/-- Every record is linked or freed, and it is freed when both of its ends are closed. -/
structure Sound (shared : Pipes) : Prop where
  numbers : ((shared.pipes ++ shared.freed).map Pipe.number).Perm (List.range shared.created)
  linked : ∀ pipe ∈ shared.pipes, pipe.reader ≠ none ∨ pipe.writer ≠ none
  released : ∀ pipe ∈ shared.freed, pipe.reader = none ∧ pipe.writer = none
  each : ∀ pipe ∈ shared.pipes ++ shared.freed, pipe.Sound

variable {shared : Pipes}

variable {pipe : Pipe}

theorem find_mem {descriptor : ℕ}
    (found : shared.find descriptor = some pipe) : pipe ∈ shared.pipes :=
  List.mem_of_find?_eq_some found

theorem find_owns {descriptor : ℕ}
    (found : shared.find descriptor = some pipe) : pipe.owns descriptor = true := by
  have owned := List.find?_some (p := fun pipe : Pipe => pipe.owns descriptor) found
  exact owned

/-- A descriptor is open if it is an end of a linked pipe. -/
theorem find_isSome {descriptor : ℕ} :
    (shared.find descriptor).isSome = true ↔
      ∃ pipe ∈ shared.pipes, pipe.owns descriptor = true := by
  rw [find, List.find?_isSome]

theorem Sound.nodup (sound : shared.Sound) : (shared.pipes.map Pipe.number).Nodup := by
  have all : ((shared.pipes ++ shared.freed).map Pipe.number).Nodup :=
    sound.numbers.nodup_iff.2 List.nodup_range
  rw [List.map_append] at all
  exact (List.nodup_append.1 all).1

/-- A number belongs to one linked record. -/
theorem Sound.same (sound : shared.Sound) {first second : Pipe}
    (firstMember : first ∈ shared.pipes) (secondMember : second ∈ shared.pipes)
    (number : first.number = second.number) : first = second :=
  List.inj_on_of_nodup_map sound.nodup firstMember secondMember number

theorem mem_store {pipe other : Pipe} (member : other ∈ (shared.store pipe).pipes) :
    other = pipe ∨ other ∈ shared.pipes := by
  obtain ⟨old, known, rfl⟩ := List.mem_map.1 member
  split
  · exact .inl rfl
  · exact .inr known

theorem store_numbers (shared : Pipes) (pipe : Pipe) :
    (shared.store pipe).pipes.map Pipe.number = shared.pipes.map Pipe.number := by
  rw [store, List.map_map]
  refine List.map_congr_left fun other _ => ?_
  simp only [Function.comp_apply]
  split
  · rename_i same
    exact same.symm
  · rfl

theorem store_sound (sound : shared.Sound) (good : pipe.Sound)
    (ends : pipe.reader ≠ none ∨ pipe.writer ≠ none) : (shared.store pipe).Sound where
  numbers := by
    rw [List.map_append, store_numbers, ← List.map_append]
    exact sound.numbers
  linked := by
    intro other member
    obtain rfl | known := mem_store member
    · exact ends
    · exact sound.linked other known
  released := sound.released
  each := by
    intro other member
    obtain linked | freed := List.mem_append.1 member
    · obtain rfl | known := mem_store linked
      · exact good
      · exact sound.each other (List.mem_append_left _ known)
    · exact sound.each other (List.mem_append_right _ freed)

/-- Writing a record with the same ends keeps the open descriptors. -/
theorem store_open (sound : shared.Sound) {old pipe : Pipe}
    (member : old ∈ shared.pipes) (number : pipe.number = old.number) {descriptor : ℕ}
    (ends : old.owns descriptor = true → pipe.owns descriptor = true)
    (before : (shared.find descriptor).isSome = true) :
    ((shared.store pipe).find descriptor).isSome = true := by
  obtain ⟨other, known, owned⟩ := find_isSome.1 before
  refine find_isSome.2 ⟨_, List.mem_map.2 ⟨other, known, rfl⟩, ?_⟩
  split
  · rename_i same
    exact ends (sound.same known member (same.trans number) ▸ owned)
  · exact owned

theorem create_sound (sound : shared.Sound) (reader writer : ℕ) :
    (shared.create reader writer).Sound where
  numbers := by
    rw [create, List.range_succ]
    exact (sound.numbers.cons _).trans (List.perm_append_singleton _ _).symm
  linked := by
    intro pipe member
    obtain rfl | known := List.mem_cons.1 member
    · exact .inl nofun
    · exact sound.linked pipe known
  released := sound.released
  each := by
    intro pipe member
    obtain rfl | known := List.mem_cons.1 member
    · exact ⟨Nat.zero_le _, rfl, nofun⟩
    · exact sound.each pipe known

/-- A new pipe does not hide an open descriptor. -/
theorem find_create {reader writer descriptor : ℕ}
    (freshReader : shared.find reader = none) (freshWriter : shared.find writer = none)
    (opened : (shared.find descriptor).isSome = true) :
    (shared.create reader writer).find descriptor = shared.find descriptor := by
  have notReader : reader ≠ descriptor := by
    rintro rfl
    rw [freshReader] at opened
    cases opened
  have notWriter : writer ≠ descriptor := by
    rintro rfl
    rw [freshWriter] at opened
    cases opened
  have other : ¬Pipe.owns { number := shared.created, reader := some reader, writer := some writer
                            head := 0, length := 0, bytes := fun _ => 0, writes := []
                            taken := [] } descriptor = true := by
    simp [Pipe.owns, notReader, notWriter]
  exact List.find?_cons_of_neg other

theorem closeEnd_sound (good : pipe.Sound) (descriptor : ℕ) : (pipe.closeEnd descriptor).Sound := by
  unfold Pipe.closeEnd
  split
  · exact ⟨good.bounded, good.conserved, good.whole⟩
  · exact ⟨good.bounded, good.conserved, good.whole⟩

theorem closeEnd_number (pipe : Pipe) (descriptor : ℕ) :
    (pipe.closeEnd descriptor).number = pipe.number := by
  unfold Pipe.closeEnd
  split <;> rfl

/-- The other end of the pipe stays open. -/
theorem closeEnd_owns {descriptor other : ℕ} (closed : pipe.owns descriptor = true)
    (different : other ≠ descriptor) (owned : pipe.owns other = true) :
    (pipe.closeEnd descriptor).owns other = true := by
  simp only [Pipe.owns, Bool.or_eq_true, decide_eq_true_eq] at closed owned ⊢
  unfold Pipe.closeEnd
  split
  · rename_i reader
    obtain first | second := owned
    · exact absurd (Option.some.inj (first.symm.trans reader)) different
    · exact .inr second
  · rename_i notReader
    obtain first | second := owned
    · exact .inl first
    · have writer := closed.resolve_left notReader
      exact absurd (Option.some.inj (second.symm.trans writer)) different

theorem numbers_filter (sound : shared.Sound)
    (member : pipe ∈ shared.pipes) (last : Pipe) (number : last.number = pipe.number) :
    (((shared.pipes.filter fun other => other.number ≠ pipe.number) ++
      last :: shared.freed).map Pipe.number).Perm (List.range shared.created) := by
  have erased : (shared.pipes.filter fun other => other.number ≠ pipe.number).map Pipe.number =
      (shared.pipes.map Pipe.number).erase pipe.number := by
    rw [sound.nodup.erase_eq_filter, List.filter_map]
    congr 1
    refine List.filter_congr fun other _ => ?_
    simp only [ne_eq, decide_not, Function.comp_apply, bne]
    rfl
  have present : pipe.number ∈ shared.pipes.map Pipe.number := List.mem_map_of_mem member
  refine List.Perm.trans ?_ sound.numbers
  rw [List.map_append, List.map_append, erased, List.map_cons, number]
  exact List.perm_middle.trans ((List.perm_cons_erase present).symm.append_right _)

theorem close_sound (sound : shared.Sound) (descriptor : ℕ) : (shared.close descriptor).Sound := by
  unfold close
  split
  · exact sound
  · rename_i pipe found
    have member := find_mem found
    have good := closeEnd_sound (sound.each pipe (List.mem_append_left _ member)) descriptor
    simp only [closeEnd_number]
    split
    · rename_i both
      refine ⟨numbers_filter sound member _ (closeEnd_number pipe descriptor), ?_, ?_, ?_⟩
      · exact fun other known => sound.linked other (List.mem_of_mem_filter known)
      · intro other known
        obtain rfl | old := List.mem_cons.1 known
        · exact both
        · exact sound.released other old
      · intro other known
        obtain linked | freed := List.mem_append.1 known
        · exact sound.each other (List.mem_append_left _ (List.mem_of_mem_filter linked))
        · obtain rfl | old := List.mem_cons.1 freed
          · exact good
          · exact sound.each other (List.mem_append_right _ old)
    · rename_i open'
      refine store_sound sound good ?_
      by_contra neither
      push Not at neither
      exact open' neither

theorem close_open (sound : shared.Sound) {descriptor other : ℕ}
    (different : other ≠ descriptor) (before : (shared.find other).isSome = true) :
    ((shared.close descriptor).find other).isSome = true := by
  unfold close
  split
  · exact before
  · rename_i pipe found
    have member := find_mem found
    have closed := find_owns found
    dsimp only
    split
    · rename_i both
      obtain ⟨owner, known, owned⟩ := find_isSome.1 before
      refine find_isSome.2 ⟨owner, List.mem_filter.2 ⟨known, ?_⟩, owned⟩
      simp only [closeEnd_number, ne_eq, decide_not, Bool.not_eq_true', decide_eq_false_iff_not]
      intro same
      have kept := closeEnd_owns closed different (sound.same known member same ▸ owned)
      rw [Pipe.owns, both.1, both.2] at kept
      cases kept
    · exact store_open sound member (closeEnd_number pipe descriptor)
        (closeEnd_owns closed different) before

/-- A round of a call leaves the pipes alone, or it stores one with the same ends. -/
theorem attempt_cases (shared : Pipes) (sound : shared.Sound) (call : IoCall) :
    (shared.attempt call).1.pipes = shared.pipes ∧
        (shared.attempt call).1.freed = shared.freed ∧
        (shared.attempt call).1.created = shared.created ∨
      ∃ old pipe, old ∈ shared.pipes ∧ (shared.attempt call).1 = shared.store pipe ∧
        pipe.number = old.number ∧ pipe.reader = old.reader ∧ pipe.writer = old.writer ∧
        pipe.Sound := by
  cases call with
  | read descriptor size =>
      simp only [attempt, read]
      split
      · exact .inl ⟨rfl, rfl, rfl⟩
      · rename_i pipe found
        have member := find_mem found
        split
        · exact .inl ⟨rfl, rfl, rfl⟩
        · split
          · refine .inr ⟨pipe, _, member, rfl, rfl, rfl, rfl, ?_⟩
            exact Pipe.pop_sound (sound.each pipe (List.mem_append_left _ member))
              (Nat.min_le_right _ _)
          · split <;> exact .inl ⟨rfl, rfl, rfl⟩
  | write descriptor data =>
      simp only [attempt, write]
      split
      · exact .inl ⟨rfl, rfl, rfl⟩
      · rename_i pipe found
        have member := find_mem found
        split
        · exact .inl ⟨rfl, rfl, rfl⟩
        · split
          · exact .inl ⟨rfl, rfl, rfl⟩
          · split
            · rename_i copied
              refine .inr ⟨pipe, _, member, rfl, rfl, rfl, rfl, ?_⟩
              exact Pipe.push_sound (sound.each pipe (List.mem_append_left _ member)) copied
            · split <;> exact .inl ⟨rfl, rfl, rfl⟩
  | poll entries =>
      simp only [attempt, poll]
      split <;> exact .inl ⟨rfl, rfl, rfl⟩
  | semaphoreWait semaphore =>
      simp only [attempt, tryWait]
      split <;> exact .inl ⟨rfl, rfl, rfl⟩

theorem attempt_sound (sound : shared.Sound) (call : IoCall) : (shared.attempt call).1.Sound := by
  obtain ⟨pipes, freed, created⟩ | ⟨old, pipe, member, after, number, reader, writer, good⟩ :=
    shared.attempt_cases sound call
  · refine ⟨?_, ?_, ?_, ?_⟩
    · rw [pipes, freed, created]
      exact sound.numbers
    · rw [pipes]
      exact sound.linked
    · rw [freed]
      exact sound.released
    · rw [pipes, freed]
      exact sound.each
  · rw [after]
    refine store_sound sound good ?_
    rw [reader, writer]
    exact sound.linked old member

theorem attempt_open (sound : shared.Sound) (call : IoCall) {descriptor : ℕ}
    (before : (shared.find descriptor).isSome = true) :
    ((shared.attempt call).1.find descriptor).isSome = true := by
  obtain ⟨pipes, -, -⟩ | ⟨old, pipe, member, after, number, reader, writer, -⟩ :=
    shared.attempt_cases sound call
  · rw [find, pipes]
    exact before
  · rw [after]
    refine store_open sound member number ?_ before
    rw [Pipe.owns, Pipe.owns, reader, writer]
    exact id

/-- A call looks only at its descriptors and at its semaphore. -/
theorem attempt_congr {first second : Pipes} {call : IoCall}
    (descriptors : ∀ descriptor ∈ call.descriptors, first.find descriptor = second.find descriptor)
    (semaphores : ∀ semaphore, call = .semaphoreWait semaphore →
      first.semaphores semaphore = second.semaphores semaphore) :
    (first.attempt call).2 = (second.attempt call).2 := by
  cases call with
  | read descriptor size =>
      simp only [attempt, read, descriptors descriptor (List.mem_singleton_self _)]
      cases second.find descriptor with
      | none => rfl
      | some pipe => dsimp only; split_ifs <;> rfl
  | write descriptor data =>
      simp only [attempt, write, descriptors descriptor (List.mem_singleton_self _)]
      cases second.find descriptor with
      | none => rfl
      | some pipe => dsimp only; split_ifs <;> rfl
  | poll entries =>
      have events : entries.map first.pollEntry = entries.map second.pollEntry := by
        refine List.map_congr_left fun entry member => ?_
        obtain ⟨descriptor, input, output⟩ := entry
        cases descriptor with
        | none => rfl
        | some descriptor =>
            have same := descriptors descriptor (List.mem_filterMap.2 ⟨_, member, rfl⟩)
            simp only [pollEntry, same]
      simp only [attempt, poll, events]
      split_ifs <;> rfl
  | semaphoreWait semaphore =>
      simp only [attempt, tryWait, semaphores semaphore rfl]
      split_ifs <;> rfl

/-- A round that returns without a notification takes at most a unit of a semaphore. -/
theorem returns_cases {call : IoCall} {answer : IoAnswer}
    (returned : (shared.attempt call).2 = .returns answer) :
    (shared.attempt call).1 = shared ∨ ∃ semaphore, shared.semaphores semaphore ≠ 0 ∧
      (shared.attempt call).1 = { shared with
        semaphores :=
          Function.update shared.semaphores semaphore (shared.semaphores semaphore - 1) } := by
  cases call with
  | read descriptor size =>
      simp only [attempt, read] at returned ⊢
      split at returned
      · exact .inl rfl
      · rename_i pipe found
        split_ifs at returned ⊢
        · exact .inl rfl
        · exact .inl rfl
  | write descriptor data =>
      simp only [attempt, write] at returned ⊢
      split at returned
      · exact .inl rfl
      · rename_i pipe found
        split_ifs at returned ⊢
        · exact .inl rfl
        · exact .inl rfl
        · exact .inl rfl
  | poll entries =>
      simp only [attempt, poll]
      split <;> exact .inl rfl
  | semaphoreWait semaphore =>
      simp only [attempt, tryWait]
      split
      · exact .inl rfl
      · rename_i positive
        exact .inr ⟨semaphore, positive, rfl⟩

theorem exits_semaphoreWait {semaphore : ℕ} :
    shared.exits (.semaphoreWait semaphore) ↔ shared.semaphores semaphore ≠ 0 := by
  simp only [exits, attempt, tryWait]
  split <;> simp_all

/-- A round that returns without a notification makes no condition true. -/
theorem exits_of_returns {call other : IoCall} {answer : IoAnswer}
    (returned : (shared.attempt call).2 = .returns answer)
    (later : (shared.attempt call).1.exits other) : shared.exits other := by
  obtain same | ⟨semaphore, positive, after⟩ := returns_cases returned
  · exact same ▸ later
  · rw [after] at later
    by_cases waits : ∃ own, other = .semaphoreWait own
    · obtain ⟨own, rfl⟩ := waits
      rw [exits_semaphoreWait] at later ⊢
      by_cases same : own = semaphore
      · exact same ▸ positive
      · dsimp only at later
        rwa [Function.update_of_ne same] at later
    · have same : (Pipes.attempt { shared with
          semaphores := Function.update shared.semaphores semaphore
            (shared.semaphores semaphore - 1) } other).2 = (shared.attempt other).2 :=
        attempt_congr (fun _ _ => rfl) fun own waiting => absurd ⟨own, waiting⟩ waits
      rw [exits, same] at later
      exact later

/-- A new pipe makes no condition of a call with open descriptors true. -/
theorem exits_of_create {reader writer : ℕ} {call : IoCall}
    (freshReader : shared.find reader = none) (freshWriter : shared.find writer = none)
    (opened : ∀ descriptor ∈ call.descriptors, (shared.find descriptor).isSome = true)
    (later : (shared.create reader writer).exits call) : shared.exits call := by
  have same : ((shared.create reader writer).attempt call).2 = (shared.attempt call).2 :=
    attempt_congr
      (fun descriptor member => find_create freshReader freshWriter (opened descriptor member))
      fun _ _ => rfl
  rw [exits, same] at later
  exact later

end Pipes

/-- The word that a thread inside of a call has loaded. -/
def IoPhase.loaded : IoPhase → Option ℕ
  | .testing _ expected => some expected
  | .waiting _ expected => some expected
  | .asleep _ expected => some expected
  | _ => none

/-- The call and the word of a thread that has found its condition false. -/
def IoPhase.watched : IoPhase → Option (IoCall × ℕ)
  | .waiting call expected => some (call, expected)
  | .asleep call expected => some (call, expected)
  | _ => none

/-- No wake is lost: a sleeper with an old word is about to be woken, and a condition that holds
behind a current word is about to be notified. -/
structure Awake {threads : ℕ} (exits : IoCall → Prop) (epoch : ℕ) (phases : Fin threads → IoPhase) :
    Prop where
  behind : ∀ thread expected, (phases thread).loaded = some expected → expected ≤ epoch
  stale : ∀ thread call expected, phases thread = .asleep call expected → expected < epoch →
    ∃ waker answer, phases waker = .waking answer
  fresh : ∀ thread call, (phases thread).watched = some (call, epoch) → exits call →
    ∃ changer answer, phases changer = .bumping answer

namespace Awake

variable {threads : ℕ} {exits others : IoCall → Prop} {epoch : ℕ} {phases : Fin threads → IoPhase}

variable {thread : Fin threads}

/-- A sleeper whose condition holds is about to be notified. -/
theorem notified (awake : Awake exits epoch phases) {call : IoCall}
    {expected : ℕ} (asleep : phases thread = .asleep call expected) (holds : exits call) :
    ∃ other, (phases other).notifying = true := by
  obtain old | current := Nat.lt_or_eq_of_le (awake.behind thread expected (by rw [asleep]; rfl))
  · obtain ⟨waker, answer, waking⟩ := awake.stale thread call expected asleep old
    exact ⟨waker, by rw [waking]; rfl⟩
  · obtain ⟨changer, answer, bumping⟩ :=
      awake.fresh thread call (by rw [asleep, current]; rfl) holds
    exact ⟨changer, by rw [bumping]; rfl⟩

/-- A thread that has nothing to notify goes on, with a word that is not newer. -/
theorem move (awake : Awake exits epoch phases) {phase : IoPhase}
    (quiet : (phases thread).notifying = false)
    (behind : ∀ expected, phase.loaded = some expected → expected ≤ epoch)
    (stale : ∀ call expected, phase = .asleep call expected → expected = epoch)
    (fresh : ∀ call, phase.watched = some (call, epoch) → exits call →
      (phases thread).watched = some (call, epoch)) :
    Awake exits epoch (Function.update phases thread phase) := by
  have keeps : ∀ {other answer}, phases other = .waking answer ∨ phases other = .bumping answer →
      other ≠ thread := by
    rintro other answer notifies rfl
    obtain waking | bumping := notifies
    · rw [waking] at quiet
      cases quiet
    · rw [bumping] at quiet
      cases quiet
  refine ⟨?_, ?_, ?_⟩
  · intro other expected loaded
    by_cases same : other = thread
    · rw [same, Function.update_self] at loaded
      exact behind expected loaded
    · rw [Function.update_of_ne same] at loaded
      exact awake.behind other expected loaded
  · intro other call expected asleep old
    by_cases same : other = thread
    · rw [same, Function.update_self] at asleep
      exact absurd (stale call expected asleep) old.ne
    · rw [Function.update_of_ne same] at asleep
      obtain ⟨waker, answer, waking⟩ := awake.stale other call expected asleep old
      exact ⟨waker, answer, by rw [Function.update_of_ne (keeps (.inl waking)), waking]⟩
  · intro other call watched holds
    have before : (phases other).watched = some (call, epoch) := by
      by_cases same : other = thread
      · rw [same, Function.update_self] at watched
        rw [same]
        exact fresh call watched holds
      · rwa [Function.update_of_ne same] at watched
    obtain ⟨changer, answer, bumping⟩ := awake.fresh other call before holds
    exact ⟨changer, answer, by rw [Function.update_of_ne (keeps (.inr bumping)), bumping]⟩

/-- The conditions of the waiting calls may become false. -/
theorem weaken (awake : Awake exits epoch phases)
    (implied : ∀ thread call, (phases thread).call = some call → others call → exits call) :
    Awake others epoch phases := by
  refine ⟨awake.behind, awake.stale, fun thread call watched holds => ?_⟩
  refine awake.fresh thread call watched (implied thread call ?_ holds)
  cases phase : phases thread <;> rw [phase] at watched <;> cases watched <;> rfl

/-- A thread that changes conditions notifies next. -/
theorem change (awake : Awake exits epoch phases) {answer : IoAnswer}
    (quiet : (phases thread).notifying = false) :
    Awake others epoch (Function.update phases thread (.bumping answer)) := by
  refine ⟨?_, ?_, fun _ _ _ _ => ⟨thread, answer, Function.update_self ..⟩⟩
  · intro other expected loaded
    by_cases same : other = thread
    · rw [same, Function.update_self] at loaded
      cases loaded
    · rw [Function.update_of_ne same] at loaded
      exact awake.behind other expected loaded
  · intro other call expected asleep old
    by_cases same : other = thread
    · rw [same, Function.update_self] at asleep
      cases asleep
    · rw [Function.update_of_ne same] at asleep
      obtain ⟨waker, given, waking⟩ := awake.stale other call expected asleep old
      refine ⟨waker, given, ?_⟩
      rw [Function.update_of_ne ?_, waking]
      rintro rfl
      rw [waking] at quiet
      cases quiet

/-- The increment of the word. -/
theorem bump (awake : Awake exits epoch phases) (thread : Fin threads) (answer : IoAnswer) :
    Awake exits (epoch + 1) (Function.update phases thread (.waking answer)) := by
  have old : ∀ other expected,
      (Function.update phases thread (.waking answer) other).loaded = some expected →
        expected ≤ epoch := by
    intro other expected loaded
    by_cases same : other = thread
    · rw [same, Function.update_self] at loaded
      cases loaded
    · rw [Function.update_of_ne same] at loaded
      exact awake.behind other expected loaded
  refine ⟨fun other expected loaded => (old other expected loaded).trans (Nat.le_succ _),
    fun _ _ _ _ _ => ⟨thread, answer, Function.update_self ..⟩, ?_⟩
  intro other call watched _
  have late := old other (epoch + 1) (by
    cases phase : Function.update phases thread (.waking answer) other <;>
      rw [phase] at watched <;> cases watched <;> rfl)
  omega

theorem woken_loaded {phase : IoPhase} {expected : ℕ} (loaded : phase.woken.loaded = some expected) :
    phase.loaded = some expected := by
  cases phase <;> first | exact loaded | cases loaded

theorem woken_watched {phase : IoPhase} {watched : IoCall × ℕ}
    (after : phase.woken.watched = some watched) : phase.watched = some watched := by
  cases phase <;> first | exact after | cases after

theorem woken_call (phase : IoPhase) : phase.woken.call = phase.call := by
  cases phase <;> rfl

/-- A wake leaves a thread alone that notifies. -/
theorem woken_notifying {phase after : IoPhase} (notifies : after.notifying = true)
    (woken : phase.woken = after) : phase = after := by
  subst woken
  cases phase <;> first | rfl | cases notifies

theorem woken_returned {phase : IoPhase} {answer : IoAnswer}
    (woken : phase.woken = .returned answer) : phase = .returned answer := by
  cases phase <;> first | exact woken | cases woken

/-- The wake of all sleepers. -/
theorem wake (awake : Awake exits epoch phases) {answer : IoAnswer}
    (waking : phases thread = .waking answer) :
    Awake exits epoch
      (Function.update (fun other => (phases other).woken) thread (.returned answer)) := by
  refine ⟨?_, ?_, ?_⟩
  · intro other expected loaded
    by_cases same : other = thread
    · rw [same, Function.update_self] at loaded
      cases loaded
    · rw [Function.update_of_ne same] at loaded
      exact awake.behind other expected (woken_loaded loaded)
  · intro other call expected asleep _
    by_cases same : other = thread
    · rw [same, Function.update_self] at asleep
      cases asleep
    · rw [Function.update_of_ne same] at asleep
      cases phase : phases other <;> rw [phase] at asleep <;> cases asleep
  · intro other call watched holds
    by_cases same : other = thread
    · rw [same, Function.update_self] at watched
      cases watched
    · rw [Function.update_of_ne same] at watched
      obtain ⟨changer, given, bumping⟩ := awake.fresh other call (woken_watched watched) holds
      refine ⟨changer, given, ?_⟩
      rw [Function.update_of_ne ?_, bumping]
      · rfl
      · rintro rfl
        rw [waking] at bumping
        cases bumping

end Awake

/-! ## The platform -/

namespace Io

variable {threads : ℕ}

/-- What every step keeps. -/
structure Sound (io : Io threads) : Prop where
  shared : io.shared.Sound
  opened : ∀ thread call, (io.phases thread).call = some call →
    ∀ descriptor ∈ call.descriptors, (io.shared.find descriptor).isSome = true
  awake : Awake io.shared.exits io.epoch io.phases
  carried : ∀ thread size data, io.phases thread = .bumping (.read size data) ∨
    io.phases thread = .waking (.read size data) → data ≠ []

theorem initial_sound (semaphores : ℕ → ℕ) : (initial threads semaphores).Sound where
  shared := ⟨List.Perm.refl _, nofun, nofun, nofun⟩
  opened := by rintro _ _ ⟨⟩
  awake := ⟨by rintro _ _ ⟨⟩, by rintro _ _ _ ⟨⟩, by rintro _ _ ⟨⟩⟩
  carried := by rintro _ _ _ (⟨⟨⟩⟩ | ⟨⟨⟩⟩)

/-- A value of the phases behind a move. -/
theorem moved {phases : Fin threads → IoPhase} {thread other : Fin threads} {phase : IoPhase}
    {motive : IoPhase → Prop} (after : motive (Function.update phases thread phase other)) :
    other = thread ∧ motive phase ∨ other ≠ thread ∧ motive (phases other) := by
  by_cases same : other = thread
  · rw [same, Function.update_self] at after
    exact .inl ⟨same, after⟩
  · rw [Function.update_of_ne same] at after
    exact .inr ⟨same, after⟩

variable {io : Io threads}

variable {thread : Fin threads}

/-- A thread goes on without a change of the pipes. -/
theorem Sound.move (sound : io.Sound) {phase : IoPhase}
    (quiet : (io.phases thread).notifying = false)
    (inside : ∀ call, phase.call = some call →
      ∀ descriptor ∈ call.descriptors, (io.shared.find descriptor).isSome = true)
    (behind : ∀ expected, phase.loaded = some expected → expected ≤ io.epoch)
    (stale : ∀ call expected, phase = .asleep call expected → expected = io.epoch)
    (fresh : ∀ call, phase.watched = some (call, io.epoch) → io.shared.exits call →
      (io.phases thread).watched = some (call, io.epoch))
    (silent : phase.notifying = false) : (io.move thread phase).Sound where
  shared := sound.shared
  opened := by
    intro other call own
    obtain ⟨-, new⟩ | ⟨-, old⟩ := moved (motive := fun phase => phase.call = some call) own
    · exact inside call new
    · exact sound.opened other call old
  awake := sound.awake.move quiet behind stale fresh
  carried := by
    intro other size data notifies
    obtain ⟨-, new⟩ | ⟨-, old⟩ := moved (motive := fun phase =>
      phase = .bumping (.read size data) ∨ phase = .waking (.read size data)) notifies
    · obtain rfl | rfl := new
      · cases silent
      · cases silent
    · exact sound.carried other size data old

/-- A thread returns, and the pipes change in a way that no waiting call can see. -/
theorem Sound.settle (sound : io.Sound) {shared : Pipes}
    (answer : IoAnswer) (quiet : (io.phases thread).notifying = false) (good : shared.Sound)
    (opened : ∀ descriptor, (io.shared.find descriptor).isSome = true →
      (shared.find descriptor).isSome = true)
    (implied : ∀ other call, (io.phases other).call = some call → shared.exits call →
      io.shared.exits call) :
    (Io.move { io with shared := shared } thread (.returned answer)).Sound := by
  have changed : Sound { io with shared := shared } :=
    ⟨good, fun other call own descriptor member =>
      opened descriptor (sound.opened other call own descriptor member),
      sound.awake.weaken implied, sound.carried⟩
  exact changed.move quiet nofun nofun nofun nofun rfl

/-- A thread changes the pipes and notifies next. -/
theorem Sound.notify (sound : io.Sound) {shared : Pipes}
    {answer : IoAnswer} (quiet : (io.phases thread).notifying = false) (good : shared.Sound)
    (opened : ∀ other call, other ≠ thread → (io.phases other).call = some call →
      ∀ descriptor ∈ call.descriptors, (shared.find descriptor).isSome = true)
    (nonempty : ∀ size data, answer = .read size data → data ≠ []) :
    (Io.move { io with shared := shared } thread (.bumping answer)).Sound where
  shared := good
  opened := by
    intro other call own
    obtain ⟨-, new⟩ | ⟨different, old⟩ :=
      moved (motive := fun phase => phase.call = some call) own
    · cases new
    · exact opened other call different old
  awake := sound.awake.change quiet
  carried := by
    intro other size data notifies
    obtain ⟨-, new⟩ | ⟨-, old⟩ := moved (motive := fun phase =>
      phase = .bumping (.read size data) ∨ phase = .waking (.read size data)) notifies
    · obtain bumping | waking := new
      · exact nonempty size data (IoPhase.bumping.inj bumping)
      · cases waking
    · exact sound.carried other size data old

theorem quiet_of_free {phase : IoPhase} (free : phase.free = true) : phase.notifying = false := by
  cases phase <;> first | rfl | cases free

/-- A round that notifies a reader has read something. -/
theorem nonempty_of_notifies {shared : Pipes} {call : IoCall} {answer : IoAnswer}
    (notified : (shared.attempt call).2 = .notifies answer) {size : ℕ} {data : List UInt8}
    (shape : answer = .read size data) : data ≠ [] := by
  subst shape
  cases call with
  | read descriptor wanted =>
      simp only [Pipes.attempt, Pipes.read] at notified
      split at notified
      · cases notified
      · rename_i pipe found
        split_ifs at notified with wrong copied
        cases notified
        intro empty
        have length := congrArg List.length empty
        rw [window_length] at length
        exact copied length
  | write descriptor offered =>
      simp only [Pipes.attempt, Pipes.write] at notified
      split at notified
      · cases notified
      · split_ifs at notified
        cases notified
  | poll entries =>
      simp only [Pipes.attempt, Pipes.poll] at notified
      split_ifs at notified
  | semaphoreWait semaphore =>
      simp only [Pipes.attempt, Pipes.tryWait] at notified
      split_ifs at notified

theorem leave_sound (sound : io.Sound) {call : IoCall} {expected : ℕ}
    (testing : io.phases thread = .testing call expected) (patient : Bool) :
    (io.leave thread call expected patient).Sound := by
  have quiet : (io.phases thread).notifying = false := by rw [testing]; rfl
  have inside := sound.opened thread call (by rw [testing]; rfl)
  have current := sound.awake.behind thread expected (by rw [testing]; rfl)
  have good := Pipes.attempt_sound sound.shared call
  have opened := fun descriptor => @Pipes.attempt_open _ sound.shared call descriptor
  unfold leave
  split
  · rename_i shared attempted
    have blocked : ¬io.shared.exits call := by
      rw [Pipes.exits, attempted]
      exact not_not.2 rfl
    cases patient with
    | false => exact sound.move quiet nofun nofun nofun nofun rfl
    | true =>
        refine sound.move quiet ?_ ?_ nofun ?_ rfl
        · rintro _ ⟨⟩
          exact inside
        · rintro _ ⟨⟩
          exact current
        · intro other watched holds
          cases watched
          exact absurd holds blocked
  · rename_i shared answer attempted
    rw [attempted] at good opened
    refine sound.settle answer quiet good opened fun other waiting _ later => ?_
    have returned : (io.shared.attempt call).2 = .returns answer := by rw [attempted]
    refine Pipes.exits_of_returns returned ?_
    rwa [attempted]
  · rename_i shared answer attempted
    rw [attempted] at good opened
    have notified : (io.shared.attempt call).2 = .notifies answer := by rw [attempted]
    refine sound.notify quiet good ?_ ?_
    · exact fun other own _ inner descriptor member =>
        opened descriptor (sound.opened other own inner descriptor member)
    · exact fun size data shape => nonempty_of_notifies notified shape

theorem post_sound (sound : io.Sound)
    (free : (io.phases thread).free = true) (semaphore : ℕ) : (io.post thread semaphore).Sound := by
  have quiet := quiet_of_free free
  unfold post
  split
  · refine sound.notify quiet ?_ ?_ nofun
    · exact ⟨sound.shared.numbers, sound.shared.linked, sound.shared.released, sound.shared.each⟩
    · exact fun other call _ own => sound.opened other call own
  · exact sound.move quiet nofun nofun nofun nofun rfl

theorem close_sound (sound : io.Sound) {descriptor : ℕ} (free : (io.phases thread).free = true)
    (unused : ∀ other, (io.phases other).uses descriptor = false) :
    (Io.move { io with shared := io.shared.close descriptor } thread (.bumping .done)).Sound := by
  refine sound.notify (quiet_of_free free) (Pipes.close_sound sound.shared descriptor) ?_ nofun
  intro other call _ own used member
  refine Pipes.close_open sound.shared ?_ (sound.opened other call own used member)
  rintro rfl
  have outside := unused other
  simp only [IoPhase.uses, own, List.contains_eq_mem, decide_eq_false_iff_not] at outside
  exact outside member

theorem step_sound {after : Io threads} {action : IoAction threads} (sound : io.Sound)
    (taken : io.step action = .ok (some after)) : after.Sound := by
  cases action with
  | pipe thread reader writer =>
      simp only [step] at taken
      split at taken
      · rename_i guard
        cases taken
        obtain ⟨free, -, freshReader, freshWriter⟩ := guard
        refine sound.settle .done (quiet_of_free free)
          (Pipes.create_sound sound.shared reader writer) ?_ ?_
        · intro descriptor before
          rwa [Pipes.find_create freshReader freshWriter before]
        · exact fun other call own later =>
            Pipes.exits_of_create freshReader freshWriter (sound.opened other call own) later
      · cases taken
  | start thread call =>
      simp only [step] at taken
      split at taken
      · rename_i guard
        cases taken
        refine sound.move (quiet_of_free guard.1) ?_ nofun nofun nofun rfl
        rintro _ ⟨⟩
        exact guard.2
      · cases taken
  | load thread =>
      simp only [step] at taken
      split at taken
      · rename_i call loading
        cases taken
        refine sound.move (by rw [loading]; rfl) ?_ ?_ nofun nofun rfl
        · rintro _ ⟨⟩
          exact sound.opened thread call (by rw [loading]; rfl)
        · rintro _ ⟨⟩
          exact le_rfl
      · cases taken
  | enter thread patient =>
      simp only [step] at taken
      split at taken
      · rename_i call expected testing
        cases taken
        exact leave_sound sound testing patient
      · cases taken
  | wait thread canBlock =>
      simp only [step] at taken
      split at taken
      · rename_i call expected waiting
        have quiet : (io.phases thread).notifying = false := by rw [waiting]; rfl
        have inside := sound.opened thread call (by rw [waiting]; rfl)
        split_ifs at taken with refused current
        · cases taken
          exact sound.move quiet nofun nofun nofun nofun rfl
        · cases taken
          refine sound.move quiet ?_ ?_ ?_ ?_ rfl
          · rintro _ ⟨⟩
            exact inside
          · rintro _ ⟨⟩
            exact current.ge
          · rintro _ _ ⟨⟩
            exact current.symm
          · intro other watched _
            rw [waiting]
            exact watched
        · cases taken
          refine sound.move quiet ?_ nofun nofun nofun rfl
          rintro _ ⟨⟩
          exact inside
      · cases taken
  | interrupt thread =>
      simp only [step] at taken
      split at taken
      · rename_i call expected asleep
        cases taken
        refine sound.move (by rw [asleep]; rfl) ?_ nofun nofun nofun rfl
        rintro _ ⟨⟩
        exact sound.opened thread call (by rw [asleep]; rfl)
      · cases taken
  | close thread descriptor =>
      simp only [step] at taken
      split at taken
      · rename_i guard
        cases taken
        exact close_sound sound guard.1 guard.2.2
      · cases taken
  | post thread semaphore =>
      simp only [step] at taken
      split at taken
      · rename_i free
        cases taken
        exact post_sound sound free semaphore
      · cases taken
  | bump thread =>
      simp only [step] at taken
      split at taken
      · rename_i answer bumping
        cases taken
        refine ⟨sound.shared, ?_, sound.awake.bump thread answer, ?_⟩
        · intro other call own
          obtain ⟨-, new⟩ | ⟨-, old⟩ := moved (motive := fun phase => phase.call = some call) own
          · cases new
          · exact sound.opened other call old
        · intro other size data notifies
          obtain ⟨-, new⟩ | ⟨-, old⟩ := moved (motive := fun phase =>
            phase = .bumping (.read size data) ∨ phase = .waking (.read size data)) notifies
          · obtain impossible | waking := new
            · cases impossible
            · exact sound.carried thread size data
                (.inl (bumping.trans (congrArg _ (IoPhase.waking.inj waking))))
          · exact sound.carried other size data old
      · cases taken
  | wake thread =>
      simp only [step] at taken
      split at taken
      · rename_i answer waking
        cases taken
        refine ⟨sound.shared, ?_, sound.awake.wake waking, ?_⟩
        · intro other call own
          obtain ⟨-, new⟩ | ⟨-, old⟩ := moved (motive := fun phase => phase.call = some call) own
          · cases new
          · exact sound.opened other call ((Awake.woken_call _).symm.trans old)
        · intro other size data notifies
          obtain ⟨-, new⟩ | ⟨-, old⟩ := moved (motive := fun phase =>
            phase = .bumping (.read size data) ∨ phase = .waking (.read size data)) notifies
          · obtain impossible | impossible := new
            · cases impossible
            · cases impossible
          · exact sound.carried other size data
              (old.imp (Awake.woken_notifying rfl) (Awake.woken_notifying rfl))
      · cases taken

/-- The thread that has changed is the one that moved. -/
theorem mover {phases : Fin threads → IoPhase} {thread other : Fin threads} {phase : IoPhase}
    (changed : Function.update phases thread phase other ≠ phases other) : other = thread := by
  by_contra different
  exact changed (Function.update_of_ne different _ _)

/-- A round of a call that returns no bytes to a reader. -/
theorem returns_empty {shared : Pipes} {call : IoCall} {size : ℕ} (wanted : 0 < size)
    (returned : (shared.attempt call).2 = .returns (.read size [])) :
    ∃ descriptor pipe, call = .read descriptor size ∧ shared.find descriptor = some pipe ∧
      pipe.reader = some descriptor ∧ pipe.writer = none ∧ pipe.queue = [] := by
  cases call with
  | read descriptor asked =>
      simp only [Pipes.attempt, Pipes.read] at returned
      split at returned
      · cases returned
      · rename_i pipe found
        split_ifs at returned with wrong copied ended
        · cases returned
        · cases returned
          have closed := ended.resolve_left wanted.ne'
          have empty : pipe.length = 0 := by omega
          refine ⟨descriptor, pipe, rfl, found, not_not.1 wrong, closed, ?_⟩
          rw [Pipe.queue, empty, window_zero]
  | write descriptor data =>
      simp only [Pipes.attempt, Pipes.write] at returned
      split at returned
      · cases returned
      · split_ifs at returned <;> cases returned
  | poll entries =>
      simp only [Pipes.attempt, Pipes.poll] at returned
      split_ifs at returned
      cases returned
  | semaphoreWait semaphore =>
      simp only [Pipes.attempt, Pipes.tryWait] at returned
      split_ifs at returned
      cases returned

/-- A read of something returns nothing only at the end of its pipe. -/
theorem read_end (sound : io.Sound) {after : Io threads} {action : IoAction threads}
    (taken : io.step action = .ok (some after)) {size : ℕ}
    (changed : after.phases thread ≠ io.phases thread)
    (ended : after.phases thread = .returned (.read size [])) (wanted : 0 < size) :
    ∃ descriptor expected pipe, io.phases thread = .testing (.read descriptor size) expected ∧
      io.shared.find descriptor = some pipe ∧ pipe.reader = some descriptor ∧
      pipe.writer = none ∧ pipe.queue = [] := by
  -- In every other case the thread that moves does not return bytes.
  have moves : ∀ {actor : Fin threads} {phase : IoPhase},
      after.phases = Function.update io.phases actor phase →
      thread = actor ∧ phase = .returned (.read size []) := by
    intro actor phase moved
    rw [moved] at changed ended
    have own : thread = actor := mover changed
    subst own
    exact ⟨rfl, (Function.update_self ..).symm.trans ended⟩
  cases action with
  | pipe actor reader writer =>
      simp only [step] at taken
      split at taken
      · cases taken
        obtain ⟨-, impossible⟩ := moves rfl
        cases impossible
      · cases taken
  | start actor call =>
      simp only [step] at taken
      split at taken
      · cases taken
        obtain ⟨-, impossible⟩ := moves rfl
        cases impossible
      · cases taken
  | load actor =>
      simp only [step] at taken
      split at taken
      · cases taken
        obtain ⟨-, impossible⟩ := moves rfl
        cases impossible
      · cases taken
  | enter actor patient =>
      simp only [step] at taken
      split at taken
      · rename_i call expected testing
        cases taken
        unfold leave at moves
        split at moves
        · obtain ⟨-, impossible⟩ := moves rfl
          cases patient <;> cases impossible
        · rename_i shared answer attempted
          obtain ⟨rfl, own⟩ := moves rfl
          have returned : (io.shared.attempt call).2 = .returns (.read size []) := by
            rw [attempted, IoPhase.returned.inj own]
          obtain ⟨descriptor, pipe, rfl, found, rest⟩ := returns_empty wanted returned
          exact ⟨descriptor, expected, pipe, testing, found, rest⟩
        · obtain ⟨-, impossible⟩ := moves rfl
          cases impossible
      · cases taken
  | wait actor canBlock =>
      simp only [step] at taken
      split at taken
      · split_ifs at taken <;> cases taken <;> obtain ⟨-, impossible⟩ := moves rfl <;>
          cases impossible
      · cases taken
  | interrupt actor =>
      simp only [step] at taken
      split at taken
      · cases taken
        obtain ⟨-, impossible⟩ := moves rfl
        cases impossible
      · cases taken
  | close actor descriptor =>
      simp only [step] at taken
      split at taken
      · cases taken
        obtain ⟨-, impossible⟩ := moves rfl
        cases impossible
      · cases taken
  | post actor semaphore =>
      simp only [step] at taken
      split at taken
      · cases taken
        unfold post at moves
        split at moves <;> obtain ⟨-, impossible⟩ := moves rfl <;> cases impossible
      · cases taken
  | bump actor =>
      simp only [step] at taken
      split at taken
      · cases taken
        obtain ⟨-, impossible⟩ := moves rfl
        cases impossible
      · cases taken
  | wake actor =>
      simp only [step] at taken
      split at taken
      · rename_i answer waking
        cases taken
        obtain ⟨rfl, own⟩ | ⟨different, own⟩ := moved (motive := fun phase =>
          phase = .returned (.read size [])) ended
        · cases own
          exact absurd rfl (sound.carried thread size [] (.inr waking))
        · refine absurd ?_ changed
          exact ended.trans (Awake.woken_returned own).symm
      · cases taken

/-! ## The pipes and semaphores -/

/-- A pipe passes on the accepted bytes in order and accepts a short write whole or not at all, a
read of something returns nothing only at the end of its pipe, a record is freed once and when both
ends are closed, and a thread that sleeps while its exit condition holds has a notification on its
way. -/
theorem pipes_and_semaphores (reached : io.Reached) :
    (∀ pipe ∈ io.shared.pipes ++ io.shared.freed, pipe.taken ++ pipe.queue = pipe.accepted ∧
      ∀ write ∈ pipe.writes, write.accepted <+: write.data ∧
        (write.data.length ≤ pipeCapacity → write.accepted = write.data)) ∧
    (∀ action after thread size, io.step action = .ok (some after) →
      after.phases thread ≠ io.phases thread →
      after.phases thread = .returned (.read size []) → 0 < size →
      ∃ descriptor expected pipe, io.phases thread = .testing (.read descriptor size) expected ∧
        io.shared.find descriptor = some pipe ∧ pipe.reader = some descriptor ∧
        pipe.writer = none ∧ pipe.queue = []) ∧
    ((io.shared.pipes ++ io.shared.freed).map Pipe.number).Perm (List.range io.shared.created) ∧
    (∀ pipe ∈ io.shared.pipes, pipe.reader ≠ none ∨ pipe.writer ≠ none) ∧
    (∀ pipe ∈ io.shared.freed, pipe.reader = none ∧ pipe.writer = none) ∧
    (∀ thread call expected, io.phases thread = .asleep call expected → io.shared.exits call →
      ∃ other, (io.phases other).notifying = true) := by
  obtain ⟨semaphores, actions, ran⟩ := reached
  have sound : io.Sound := runs_preserves step_sound (initial_sound semaphores) ran
  refine ⟨fun pipe member => ?_, fun action after thread size taken changed ended wanted => ?_,
    sound.shared.numbers, sound.shared.linked, sound.shared.released,
    fun thread call expected asleep holds => sound.awake.notified asleep holds⟩
  · have good := sound.shared.each pipe member
    exact ⟨good.conserved, good.whole⟩
  · exact read_end sound taken changed ended wanted

/-- A reader sleeps on a pipe and a writer has put a byte into it. -/
theorem pipes_and_semaphores_writer : ∃ io : Io 2,
    runs step (initial 2 fun _ => 0)
        [.pipe 0 3 4, .start 0 (.read 3 1), .load 0, .enter 0 true, .wait 0 true,
          .start 1 (.write 4 [7]), .load 1, .enter 1 true] = some io ∧
      io.phases 0 = .asleep (.read 3 1) 0 ∧ ∃ other, (io.phases other).notifying = true := by
  have reached : @Reached 2 _ :=
    ⟨fun _ => 0, [.pipe 0 3 4, .start 0 (.read 3 1), .load 0, .enter 0 true, .wait 0 true,
      .start 1 (.write 4 [7]), .load 1, .enter 1 true], rfl⟩
  exact ⟨_, rfl, rfl, (pipes_and_semaphores reached).2.2.2.2.2 0 _ _ rfl nofun⟩

/-- Before the notification of the writer the reader sleeps with its exit condition true. -/
theorem sleeper_before_notification : ∃ io : Io 2,
    runs step (initial 2 fun _ => 0)
        [.pipe 0 3 4, .start 0 (.read 3 1), .load 0, .enter 0 true, .wait 0 true,
          .start 1 (.write 4 [7]), .load 1, .enter 1 true] = some io ∧
      io.phases 0 = .asleep (.read 3 1) 0 ∧ io.shared.exits (.read 3 1) :=
  ⟨_, rfl, rfl, nofun⟩

end Io

end Postgamma.Runtime
