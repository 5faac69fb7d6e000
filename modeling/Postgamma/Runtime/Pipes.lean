import Mathlib
import Postgamma.Library.Ring
import Postgamma.Library.Program

/-!
# Pipes and semaphores of the browser platform

The emulated pipes of `emscripten/io.c` and the semaphores of `emscripten/semaphore.c`.  All of them
wait on one notification word: a thread loads the word, looks at its condition in a critical section
and goes to sleep only if the word is still the same; whoever changes a condition increments the
word and wakes every sleeper.  Critical sections, loads, increments and futex calls are steps of
their own.

The word does not wrap during a wait, so it is a natural number.  A pipe keeps a log of the writes
that it accepted and of the bytes that were read from it.
-/

namespace Postgamma.Runtime

def pipeCapacity : ℕ := 4096

/-- The largest value of a semaphore. -/
def semaphoreMaximum : ℕ := 2147483647

/-- A write that was accepted: what was offered and what went into the pipe. -/
structure PipeWrite where
  data : List UInt8
  accepted : List UInt8
  deriving DecidableEq

/-- `PostgammaPipe`; a closed end has no descriptor. -/
structure Pipe where
  number : ℕ
  reader : Option ℕ
  writer : Option ℕ
  head : ℕ
  length : ℕ
  bytes : ℕ → UInt8
  /-- The accepted writes, the first one first. -/
  writes : List PipeWrite
  /-- The bytes that were read. -/
  taken : List UInt8

namespace Pipe

/-- The bytes in the pipe. -/
def queue (pipe : Pipe) : List UInt8 :=
  window pipe.bytes pipeCapacity pipe.head pipe.length

/-- The bytes that writes put into the pipe. -/
def accepted (pipe : Pipe) : List UInt8 :=
  (pipe.writes.map PipeWrite.accepted).flatten

/-- `p->reader == fd || p->writer == fd`. -/
def owns (pipe : Pipe) (descriptor : ℕ) : Bool :=
  pipe.reader = some descriptor || pipe.writer = some descriptor

/-- The first `count` bytes are taken. -/
def pop (pipe : Pipe) (count : ℕ) : Pipe :=
  { pipe with
    head := (pipe.head + count) % pipeCapacity
    length := pipe.length - count
    taken := pipe.taken ++ window pipe.bytes pipeCapacity pipe.head count }

/-- The first `count` bytes of a write are put behind the queue. -/
def push (pipe : Pipe) (data : List UInt8) (count : ℕ) : Pipe :=
  { pipe with
    bytes := pushAll pipeCapacity pipe.head pipe.length (data.take count) pipe.bytes
    length := pipe.length + count
    writes := pipe.writes ++ [{ data := data, accepted := data.take count }] }

/-- How much of a write goes into the pipe. -/
def copied (pipe : Pipe) (size : ℕ) : ℕ :=
  let space := pipeCapacity - pipe.length
  if size ≤ pipeCapacity ∧ space < size then 0 else min size space

def closeEnd (pipe : Pipe) (descriptor : ℕ) : Pipe :=
  if pipe.reader = some descriptor then { pipe with reader := none }
  else { pipe with writer := none }

end Pipe

/-- An entry of `struct pollfd`; a negative descriptor is skipped. -/
structure PollEntry where
  descriptor : Option ℕ
  input : Bool
  output : Bool
  deriving DecidableEq

/-- The `revents` of an entry. -/
structure PollEvents where
  input : Bool
  output : Bool
  hangup : Bool
  error : Bool
  deriving DecidableEq

/-- `f->revents != 0`. -/
def PollEvents.any (events : PollEvents) : Bool :=
  events.input || events.output || events.hangup || events.error

/-- A call that may wait. -/
inductive IoCall where
  | read (descriptor size : ℕ)
  | write (descriptor : ℕ) (data : List UInt8)
  | poll (entries : List PollEntry)
  | semaphoreWait (semaphore : ℕ)
  deriving DecidableEq

/-- What a call returns. -/
inductive IoAnswer where
  | read (size : ℕ) (data : List UInt8)
  | written (count : ℕ)
  | polled (events : List PollEvents)
  /-- Success without a value. -/
  | done
  | badDescriptor
  | brokenPipe
  /-- `EAGAIN`, a timeout, or a thread that cannot block. -/
  | gaveUp
  /-- The descriptor is none of a pipe and the call is passed to the system. -/
  | passedOn
  deriving DecidableEq

def IoCall.descriptors : IoCall → List ℕ
  | .read descriptor _ => [descriptor]
  | .write descriptor _ => [descriptor]
  | .poll entries => entries.filterMap PollEntry.descriptor
  | .semaphoreWait _ => []

/-- The shared part: the list of pipes and the semaphores. -/
structure Pipes where
  pipes : List Pipe
  freed : List Pipe
  created : ℕ
  semaphores : ℕ → ℕ

/-- The end of a critical section of a call. -/
inductive Attempt where
  /-- The condition of the call does not hold. -/
  | blocked
  | returns (answer : IoAnswer)
  /-- The call notifies and returns. -/
  | notifies (answer : IoAnswer)
  deriving DecidableEq

namespace Pipes

/-- `find_pipe`. -/
def find (shared : Pipes) (descriptor : ℕ) : Option Pipe :=
  shared.pipes.find? fun pipe => pipe.owns descriptor

/-- The record of a pipe is written. -/
def store (shared : Pipes) (pipe : Pipe) : Pipes :=
  { shared with
    pipes := shared.pipes.map fun other => if other.number = pipe.number then pipe else other }

/-- The critical section of `postgamma_platform_read`. -/
def read (shared : Pipes) (descriptor size : ℕ) : Pipes × Attempt :=
  match shared.find descriptor with
  | none => (shared, .returns .passedOn)
  | some pipe =>
      if pipe.reader ≠ some descriptor then (shared, .returns .badDescriptor)
      else
        let copied := min size pipe.length
        if copied ≠ 0 then
          (shared.store (pipe.pop copied),
            .notifies (.read size (window pipe.bytes pipeCapacity pipe.head copied)))
        else if size = 0 ∨ pipe.writer = none then (shared, .returns (.read size []))
        else (shared, .blocked)

/-- The critical section of `postgamma_platform_write`. -/
def write (shared : Pipes) (descriptor : ℕ) (data : List UInt8) : Pipes × Attempt :=
  match shared.find descriptor with
  | none => (shared, .returns .passedOn)
  | some pipe =>
      if pipe.writer ≠ some descriptor then (shared, .returns .badDescriptor)
      else if pipe.reader = none then (shared, .returns .brokenPipe)
      else
        let copied := pipe.copied data.length
        if copied ≠ 0 then (shared.store (pipe.push data copied), .notifies (.written copied))
        else if data.length = 0 then (shared, .returns (.written 0))
        else (shared, .blocked)

/-- The events of one entry of `postgamma_platform_poll`. -/
def pollEntry (shared : Pipes) (entry : PollEntry) : PollEvents :=
  match entry.descriptor with
  | none => ⟨false, false, false, false⟩
  | some descriptor =>
      match shared.find descriptor with
      | none => ⟨false, false, false, false⟩
      | some pipe =>
          if pipe.reader = some descriptor then
            ⟨pipe.length ≠ 0 && entry.input, false, pipe.writer = none, false⟩
          else ⟨false, pipe.length < pipeCapacity && entry.output, false, pipe.reader = none⟩

/-- The critical section of `postgamma_platform_poll`. -/
def poll (shared : Pipes) (entries : List PollEntry) : Pipes × Attempt :=
  let events := entries.map shared.pollEntry
  if events.any PollEvents.any = true then (shared, .returns (.polled events))
  else (shared, .blocked)

/-- `sem_trywait`. -/
def tryWait (shared : Pipes) (semaphore : ℕ) : Pipes × Attempt :=
  if shared.semaphores semaphore = 0 then (shared, .blocked)
  else
    ({ shared with
        semaphores :=
          Function.update shared.semaphores semaphore (shared.semaphores semaphore - 1) },
      .returns .done)

/-- One round of the loop of a call. -/
def attempt (shared : Pipes) : IoCall → Pipes × Attempt
  | .read descriptor size => shared.read descriptor size
  | .write descriptor data => shared.write descriptor data
  | .poll entries => shared.poll entries
  | .semaphoreWait semaphore => shared.tryWait semaphore

/-- The exit condition of a call: a round of its loop would be the last one. -/
def exits (shared : Pipes) (call : IoCall) : Prop :=
  (shared.attempt call).2 ≠ .blocked

/-- The critical section of `postgamma_platform_pipe`. -/
def create (shared : Pipes) (reader writer : ℕ) : Pipes :=
  { shared with
    pipes :=
      { number := shared.created, reader := some reader, writer := some writer, head := 0
        length := 0, bytes := fun _ => 0, writes := [], taken := [] } :: shared.pipes
    created := shared.created + 1 }

/-- The critical section of `postgamma_platform_close`. -/
def close (shared : Pipes) (descriptor : ℕ) : Pipes :=
  match shared.find descriptor with
  | none => shared
  | some pipe =>
      let pipe := pipe.closeEnd descriptor
      if pipe.reader = none ∧ pipe.writer = none then
        { shared with
          pipes := shared.pipes.filter fun other => other.number ≠ pipe.number
          freed := pipe :: shared.freed }
      else shared.store pipe

end Pipes

/-- Where a thread is. -/
inductive IoPhase where
  | returned (answer : IoAnswer)
  /-- The next step loads the notification word. -/
  | loading (call : IoCall)
  /-- The word is loaded; the next step is the critical section. -/
  | testing (call : IoCall) (expected : ℕ)
  /-- The condition did not hold; the next step is the futex wait. -/
  | waiting (call : IoCall) (expected : ℕ)
  | asleep (call : IoCall) (expected : ℕ)
  /-- The next step increments the word. -/
  | bumping (answer : IoAnswer)
  /-- The next step wakes the sleepers. -/
  | waking (answer : IoAnswer)
  deriving DecidableEq

namespace IoPhase

def call : IoPhase → Option IoCall
  | .loading call => some call
  | .testing call _ => some call
  | .waiting call _ => some call
  | .asleep call _ => some call
  | _ => none

/-- The thread is inside of a call with the descriptor. -/
def uses (phase : IoPhase) (descriptor : ℕ) : Bool :=
  match phase.call with
  | none => false
  | some call => call.descriptors.contains descriptor

/-- The thread has changed something and has yet to notify or to finish its notification. -/
def notifying : IoPhase → Bool
  | .bumping _ => true
  | .waking _ => true
  | _ => false

/-- The effect of a futex wake on a thread. -/
def woken : IoPhase → IoPhase
  | .asleep call _ => .loading call
  | phase => phase

/-- The thread is not in a call. -/
def free : IoPhase → Bool
  | .returned _ => true
  | _ => false

end IoPhase

/-- The platform with its threads. -/
structure Io (threads : ℕ) where
  shared : Pipes
  /-- The notification word. -/
  epoch : ℕ
  phases : Fin threads → IoPhase

/-- What a thread can do. -/
inductive IoAction (threads : ℕ) where
  | pipe (thread : Fin threads) (reader writer : ℕ)
  | start (thread : Fin threads) (call : IoCall)
  | load (thread : Fin threads)
  /-- The critical section; an impatient thread is non-blocking or has reached its deadline. -/
  | enter (thread : Fin threads) (patient : Bool)
  /-- `emscripten_futex_wait`, or its refusal when the thread cannot block. -/
  | wait (thread : Fin threads) (canBlock : Bool)
  /-- The futex wait ends without a notification. -/
  | interrupt (thread : Fin threads)
  | close (thread : Fin threads) (descriptor : ℕ)
  | post (thread : Fin threads) (semaphore : ℕ)
  | bump (thread : Fin threads)
  | wake (thread : Fin threads)

namespace Io

variable {threads : ℕ}

/-- There are no pipes yet, and the semaphores have their first values. -/
def initial (threads : ℕ) (semaphores : ℕ → ℕ) : Io threads :=
  { shared := { pipes := [], freed := [], created := 0, semaphores := semaphores }
    epoch := 0
    phases := fun _ => .returned .done }

/-- A thread goes on to a phase. -/
def move (io : Io threads) (thread : Fin threads) (phase : IoPhase) : Io threads :=
  { io with phases := Function.update io.phases thread phase }

/-- The end of the critical section of a call. -/
def leave (io : Io threads) (thread : Fin threads) (call : IoCall) (expected : ℕ) (patient : Bool) :
    Io threads :=
  match io.shared.attempt call with
  | (_, .blocked) =>
      io.move thread (if patient = true then .waiting call expected else .returned .gaveUp)
  | (shared, .returns answer) => { io with shared := shared }.move thread (.returned answer)
  | (shared, .notifies answer) => { io with shared := shared }.move thread (.bumping answer)

/-- `sem_post`, which fails at the largest value. -/
def post (io : Io threads) (thread : Fin threads) (semaphore : ℕ) : Io threads :=
  if io.shared.semaphores semaphore < semaphoreMaximum then
    { io with
      shared :=
        { io.shared with
          semaphores := Function.update io.shared.semaphores semaphore
            (io.shared.semaphores semaphore + 1) } }.move thread (.bumping .done)
  else io.move thread (.returned .gaveUp)

/-- One step of a thread.  A call is made with open descriptors, and a descriptor is closed when no
thread is inside of a call with it; the system does not hand out a descriptor that is open. -/
def step (io : Io threads) : IoAction threads → Except Empty (Option (Io threads))
  | .pipe thread reader writer =>
      if (io.phases thread).free = true ∧ reader ≠ writer ∧ io.shared.find reader = none ∧
          io.shared.find writer = none then
        .ok (some ({ io with shared := io.shared.create reader writer }.move thread
          (.returned .done)))
      else .ok none
  | .start thread call =>
      if (io.phases thread).free = true ∧
          ∀ descriptor ∈ call.descriptors, (io.shared.find descriptor).isSome = true then
        .ok (some (io.move thread (.loading call)))
      else .ok none
  | .load thread =>
      match io.phases thread with
      | .loading call => .ok (some (io.move thread (.testing call io.epoch)))
      | _ => .ok none
  | .enter thread patient =>
      match io.phases thread with
      | .testing call expected => .ok (some (io.leave thread call expected patient))
      | _ => .ok none
  | .wait thread canBlock =>
      match io.phases thread with
      | .waiting call expected =>
          if canBlock = false then .ok (some (io.move thread (.returned .gaveUp)))
          else if io.epoch = expected then .ok (some (io.move thread (.asleep call expected)))
          else .ok (some (io.move thread (.loading call)))
      | _ => .ok none
  | .interrupt thread =>
      match io.phases thread with
      | .asleep call _ => .ok (some (io.move thread (.loading call)))
      | _ => .ok none
  | .close thread descriptor =>
      if (io.phases thread).free = true ∧ (io.shared.find descriptor).isSome = true ∧
          ∀ other, (io.phases other).uses descriptor = false then
        .ok (some ({ io with shared := io.shared.close descriptor }.move thread (.bumping .done)))
      else .ok none
  | .post thread semaphore =>
      if (io.phases thread).free = true then .ok (some (io.post thread semaphore)) else .ok none
  | .bump thread =>
      match io.phases thread with
      | .bumping answer =>
          .ok (some ({ io with epoch := io.epoch + 1 }.move thread (.waking answer)))
      | _ => .ok none
  | .wake thread =>
      match io.phases thread with
      | .waking answer =>
          .ok (some ({ io with phases := fun other => (io.phases other).woken }.move thread
            (.returned answer)))
      | _ => .ok none

/-- The platform behind some actions. -/
def Reached (io : Io threads) : Prop :=
  ∃ semaphores actions, runs step (initial threads semaphores) actions = some io

end Io

end Postgamma.Runtime
