import Mathlib
import Postgamma.Embedded.MemoryTransportMoves

/-!
# The streams of the memory transport

In each direction the bytes that reads returned and the bytes in the queue are the bytes that
writes accepted, in their order, over every run.  The end of a stream is answered only when nothing
is left to come.
-/

namespace Postgamma.Embedded.MemoryTransport

@[simp] theorem Side.other_other (side : Side) : side.other.other = side := by
  cases side <;> rfl

theorem Side.other_ne (side : Side) : side.other ≠ side := by
  cases side <;> decide

theorem Side.ne_other (side : Side) : side ≠ side.other := side.other_ne.symm

theorem Side.eq_or_eq_other (writer side : Side) : writer = side ∨ writer = side.other := by
  cases writer <;> cases side <;> decide

/-- The fill of a queue. -/
structure Queue.Sound (queue : Queue) (capacity : ℕ) : Prop where
  positive : 0 < capacity
  bounded : 2 * capacity < sizeValues
  head : queue.head < capacity
  length : queue.length ≤ capacity
  totals : queue.totalWritten - queue.totalRead = UInt64.ofNat queue.length

/-- The sums and differences that writes and reads compute are those of the natural numbers. -/
structure Queue.Exact (queue : Queue) (capacity : ℕ) : Prop where
  available : sizeSub capacity queue.length + queue.length = capacity
  tail : sizeAdd queue.head queue.length = queue.head + queue.length
  behind : sizeSub capacity ((queue.head + queue.length) % capacity) +
    (queue.head + queue.length) % capacity = capacity
  front : sizeSub capacity queue.head + queue.head = capacity
  rest : ∀ amount ≤ capacity, ∀ first ≤ amount, sizeSub amount first + first = amount
  grown : ∀ amount ≤ capacity - queue.length, sizeAdd queue.length amount = queue.length + amount
  shrunk : ∀ amount ≤ queue.length, sizeSub queue.length amount + amount = queue.length
  moved : ∀ amount ≤ queue.length, sizeAdd queue.head amount = queue.head + amount

theorem sizeAdd_eq {left right : ℕ} (fits : left + right < sizeValues) :
    sizeAdd left right = left + right := Nat.mod_eq_of_lt fits

theorem sizeSub_eq {left right : ℕ} (less : right ≤ left) (fits : left < sizeValues) :
    sizeSub left right = left - right := by
  rw [sizeSub, show left + sizeValues - right = left - right + sizeValues by omega,
    Nat.add_mod_right, Nat.mod_eq_of_lt (by omega)]

namespace Queue.Sound

variable {queue : Queue} {capacity : ℕ}

theorem exact (sound : queue.Sound capacity) : queue.Exact capacity := by
  obtain ⟨positive, bounded, head, length, -⟩ := sound
  have tail := Nat.mod_lt (queue.head + queue.length) positive
  refine ⟨?_, sizeAdd_eq (by omega), ?_, ?_, fun amount fits first less => ?_,
    fun amount fits => sizeAdd_eq (by omega), fun amount fits => ?_,
    fun amount fits => sizeAdd_eq (by omega)⟩
  · rw [sizeSub_eq length (by omega), Nat.sub_add_cancel length]
  · rw [sizeSub_eq tail.le (by omega), Nat.sub_add_cancel tail.le]
  · rw [sizeSub_eq head.le (by omega), Nat.sub_add_cancel head.le]
  · rw [sizeSub_eq less (by omega), Nat.sub_add_cancel less]
  · rw [sizeSub_eq fits (by omega), Nat.sub_add_cancel fits]

/-- A write copies what fits behind the queue. -/
theorem write_eq (sound : queue.Sound capacity) (source : List UInt8) :
    queue.write capacity source =
      (min source.length (capacity - queue.length),
        { queue with
          bytes := copyAround queue.bytes capacity ((queue.head + queue.length) % capacity)
            (source.take (min source.length (capacity - queue.length)))
          length := queue.length + min source.length (capacity - queue.length)
          totalWritten := queue.totalWritten +
            UInt64.ofNat (min source.length (capacity - queue.length)) }) := by
  obtain ⟨positive, bounded, head, length, -⟩ := sound
  have below := Nat.mod_lt (queue.head + queue.length) positive
  have fits : min source.length (capacity - queue.length) ≤ capacity - queue.length :=
    Nat.min_le_right ..
  rw [Queue.write, sizeSub_eq length (by omega), sizeAdd_eq (by omega), ← min_def_lt,
    sizeSub_eq below.le (by omega), sizeAdd_eq (by omega), ← min_def_lt]
  generalize min source.length (capacity - queue.length) = amount at *
  generalize (queue.head + queue.length) % capacity = tail at *
  have head_segment : source.take (min amount (capacity - tail)) =
      (source.take amount).take (capacity - tail) := by
    rw [List.take_take, min_comm]
  have rest_segment : (source.drop (min amount (capacity - tail))).take
      (amount - min amount (capacity - tail)) = (source.take amount).drop (capacity - tail) := by
    rw [List.drop_take]
    obtain short | long := Nat.le_total amount (capacity - tail)
    · rw [Nat.min_eq_left short, Nat.sub_self, Nat.sub_eq_zero_of_le short, List.take_zero,
        List.take_zero]
    · rw [Nat.min_eq_right long]
  rw [head_segment, sizeSub_eq (Nat.min_le_left ..) (by omega), rest_segment, copyAround]

/-- A read takes the first bytes of the queue. -/
theorem read_eq (sound : queue.Sound capacity) (length : ℕ) :
    queue.read capacity length =
      (min length queue.length, (queue.content capacity).take (min length queue.length),
        { queue with
          head := (queue.head + min length queue.length) % capacity
          length := queue.length - min length queue.length
          totalRead := queue.totalRead + UInt64.ofNat (min length queue.length) }) := by
  obtain ⟨positive, bounded, head, full, -⟩ := sound
  have fits : min length queue.length ≤ queue.length := Nat.min_le_right ..
  rw [Queue.read, ← min_def_lt, sizeSub_eq head.le (by omega), sizeAdd_eq (by omega),
    sizeSub_eq fits (by omega), content, ← window_take _ _ _ fits, ← min_def_lt,
    sizeSub_eq (Nat.min_le_left ..) (by omega),
    segment_append_segment queue.bytes head (fits.trans full)]

theorem write_content (sound : queue.Sound capacity) (source : List UInt8) :
    (queue.write capacity source).2.content capacity =
      queue.content capacity ++ source.take (queue.write capacity source).1 := by
  have room := sound.length
  have count : (source.take (min source.length (capacity - queue.length))).length =
      min source.length (capacity - queue.length) := by
    rw [List.length_take]
    omega
  have fits : queue.length + (source.take (min source.length (capacity - queue.length))).length ≤
      capacity := by
    omega
  have copied : window (copyAround queue.bytes capacity ((queue.head + queue.length) % capacity)
      (source.take (min source.length (capacity - queue.length)))) capacity queue.head _ = _ :=
    window_copyAround queue.bytes _ sound.positive fits
  rw [count] at copied
  rw [sound.write_eq, content, content]
  exact copied

theorem read_content (sound : queue.Sound capacity) (length : ℕ) :
    (queue.read capacity length).2.1 ++ (queue.read capacity length).2.2.content capacity =
      queue.content capacity := by
  rw [sound.read_eq]
  simp only [content]
  rw [window_drop, List.take_append_drop]

theorem write_sound (sound : queue.Sound capacity) (source : List UInt8) :
    (queue.write capacity source).2.Sound capacity := by
  have room := sound.length
  rw [sound.write_eq]
  refine ⟨sound.positive, sound.bounded, sound.head, ?_, ?_⟩
  · change queue.length + min source.length (capacity - queue.length) ≤ capacity
    omega
  · change queue.totalWritten + UInt64.ofNat _ - queue.totalRead = UInt64.ofNat _
    rw [UInt64.ofNat_add, ← sound.totals]
    grind

theorem read_sound (sound : queue.Sound capacity) (length : ℕ) :
    (queue.read capacity length).2.2.Sound capacity := by
  have fits : min length queue.length ≤ queue.length := Nat.min_le_right ..
  have room := sound.length
  rw [sound.read_eq]
  refine ⟨sound.positive, sound.bounded, Nat.mod_lt _ sound.positive, ?_, ?_⟩
  · change queue.length - min length queue.length ≤ capacity
    omega
  · change queue.totalWritten - (queue.totalRead + UInt64.ofNat _) = UInt64.ofNat _
    have whole : UInt64.ofNat queue.length = UInt64.ofNat (queue.length - min length queue.length) +
        UInt64.ofNat (min length queue.length) := by
      rw [← UInt64.ofNat_add, Nat.sub_add_cancel fits]
    have totals := sound.totals
    rw [whole] at totals
    grind

end Queue.Sound

theorem Queue.read_ends (queue : Queue) (capacity length : ℕ) :
    (queue.read capacity length).2.2.writerClosed = queue.writerClosed ∧
      (queue.read capacity length).2.2.readerClosed = queue.readerClosed := by
  cases queue
  exact ⟨rfl, rfl⟩

theorem Queue.write_ends (queue : Queue) (capacity : ℕ) (source : List UInt8) :
    (queue.write capacity source).2.writerClosed = queue.writerClosed ∧
      (queue.write capacity source).2.readerClosed = queue.readerClosed := by
  cases queue
  exact ⟨rfl, rfl⟩

/-- Only the ends of a queue may have been closed. -/
structure Queue.Closing (before after : Queue) : Prop where
  bytes : after.bytes = before.bytes
  head : after.head = before.head
  length : after.length = before.length
  totalWritten : after.totalWritten = before.totalWritten
  totalRead : after.totalRead = before.totalRead
  writerClosed : before.writerClosed = true → after.writerClosed = true

namespace Queue.Closing

variable {before after : Queue} {capacity : ℕ}

theorem refl (queue : Queue) : queue.Closing queue := ⟨rfl, rfl, rfl, rfl, rfl, id⟩

theorem content (closing : before.Closing after) :
    after.content capacity = before.content capacity := by
  rw [Queue.content, Queue.content, closing.bytes, closing.head, closing.length]

theorem sound (closing : before.Closing after) (sound : before.Sound capacity) :
    after.Sound capacity :=
  { positive := sound.positive
    bounded := sound.bounded
    head := closing.head ▸ sound.head
    length := closing.length ▸ sound.length
    totals := by rw [closing.totalWritten, closing.totalRead, closing.length, sound.totals] }

end Queue.Closing

/-- The bytes that writes of a side accepted. -/
def accepted (history : List Record) (side : Side) : List UInt8 :=
  history.flatMap fun record =>
    if record.side = side then acceptedBy record.call record.answer else []

/-- The bytes that reads of a side returned. -/
def returned (history : List Record) (side : Side) : List UInt8 :=
  history.flatMap fun record => if record.side = side then returnedBy record.answer else []

theorem accepted_append (before after : List Record) (side : Side) :
    accepted (before ++ after) side = accepted before side ++ accepted after side :=
  List.flatMap_append

theorem returned_append (before after : List Record) (side : Side) :
    returned (before ++ after) side = returned before side ++ returned after side :=
  List.flatMap_append

theorem accepted_single (side writer : Side) (call : Call) (answer : Answer) :
    accepted [⟨side, call, answer⟩] writer =
      if side = writer then acceptedBy call answer else [] := by
  simp [accepted]

theorem returned_single (side reader : Side) (call : Call) (answer : Answer) :
    returned [⟨side, call, answer⟩] reader = if side = reader then returnedBy answer else [] := by
  simp [returned]

/-- What a call does to the direction of a writer. -/
structure Flows (transport : Transport) (side : Side) (call : Call) (effect : Effect)
    (writer : Side) : Prop where
  sound : (effect.transport.queues writer).Sound effect.transport.capacity
  balance : returned (Slot.recorded side call effect.answer) writer.other ++
      (effect.transport.queues writer).content effect.transport.capacity =
    (transport.queues writer).content transport.capacity ++
      accepted (Slot.recorded side call effect.answer) writer
  closed : (transport.queues writer).writerClosed = true →
    (effect.transport.queues writer).writerClosed = true ∧
      accepted (Slot.recorded side call effect.answer) writer = []
  ended : ∀ answer ∈ effect.answer, answer.code = .eof → side = writer.other →
    (transport.queues writer).length = 0 ∧ (transport.queues writer).writerClosed = true

namespace Flows

variable {transport : Transport} {side writer : Side} {call : Call} {effect : Effect}
  {answer : Answer}

/-- A direction in which nothing moves. -/
theorem of_closing (answered : effect.answer = some answer)
    (capacity : effect.transport.capacity = transport.capacity)
    (closing : (transport.queues writer).Closing (effect.transport.queues writer))
    (sound : (transport.queues writer).Sound transport.capacity)
    (takes : side = writer → acceptedBy call answer = [])
    (gives : side = writer.other → returnedBy answer = []) (open_ : answer.code ≠ .eof) :
    Flows transport side call effect writer := by
  have none_taken : accepted (Slot.recorded side call effect.answer) writer = [] := by
    rw [answered, Slot.recorded, accepted_single]
    exact ite_eq_right_iff.2 takes
  have none_given : returned (Slot.recorded side call effect.answer) writer.other = [] := by
    rw [answered, Slot.recorded, returned_single]
    exact ite_eq_right_iff.2 gives
  refine ⟨capacity ▸ closing.sound sound, ?_,
    fun closed => ⟨closing.writerClosed closed, none_taken⟩, fun other found ended => ?_⟩
  · rw [none_taken, none_given, capacity, closing.content, List.nil_append, List.append_nil]
  · rw [answered] at found
    rw [← Option.some.inj found] at ended
    exact absurd ended open_

end Flows

theorem flows_of_idle {globals : Globals} {transport : Transport} {side writer : Side}
    {call : Call} {effect : Effect} (idle : effect.Idle globals transport side call)
    (sound : (transport.queues writer).Sound transport.capacity) :
    Flows transport side call effect writer := by
  have none_taken : accepted (Slot.recorded side call effect.answer) writer = [] := by
    cases found : effect.answer with
    | none => rfl
    | some answer => rw [Slot.recorded, accepted_single, idle.accepted answer found, ite_self]
  have none_given : returned (Slot.recorded side call effect.answer) writer.other = [] := by
    cases found : effect.answer with
    | none => rfl
    | some answer => rw [Slot.recorded, returned_single, idle.returned answer found, ite_self]
  refine ⟨?_, ?_, fun closed => ⟨?_, none_taken⟩, fun answer found ended reader => ?_⟩
  · rw [idle.alike.queues, idle.alike.capacity]
    exact sound
  · rw [none_taken, none_given, idle.alike.queues, idle.alike.capacity, List.nil_append,
      List.append_nil]
  · rw [idle.alike.queues]
    exact closed
  · have empty := idle.ended answer found ended
    rw [Transport.inbound, reader, Side.other_other] at empty
    exact empty

namespace Transport

@[simp] theorem putQueue_self (transport : Transport) (writer : Side) (queue : Queue) :
    (transport.putQueue writer queue).queues writer = queue := Function.update_self ..

theorem putQueue_of_ne {transport : Transport} {writer other : Side} (apart : other ≠ writer)
    (queue : Queue) : (transport.putQueue writer queue).queues other = transport.queues other :=
  Function.update_of_ne apart ..

@[simp] theorem putQueue_capacity (transport : Transport) (writer : Side) (queue : Queue) :
    (transport.putQueue writer queue).capacity = transport.capacity := rfl

@[simp] theorem putEndpoint_queues (transport : Transport) (side : Side) (endpoint : Endpoint) :
    (transport.putEndpoint side endpoint).queues = transport.queues := rfl

@[simp] theorem putEndpoint_self (transport : Transport) (side : Side) (endpoint : Endpoint) :
    (transport.putEndpoint side endpoint).endpoints side = endpoint := Function.update_self ..

theorem putEndpoint_of_ne {transport : Transport} {side other : Side} (apart : other ≠ side)
    (endpoint : Endpoint) :
    (transport.putEndpoint side endpoint).endpoints other = transport.endpoints other :=
  Function.update_of_ne apart ..

@[simp] theorem observeFull_queues (transport : Transport) :
    transport.observeFull.queues = transport.queues := by
  rw [observeFull]
  split_ifs <;> rfl

@[simp] theorem observeFull_capacity (transport : Transport) :
    transport.observeFull.capacity = transport.capacity := by
  rw [observeFull]
  split_ifs <;> rfl

theorem putQueue_closing (transport : Transport) (side writer : Side) :
    (transport.queues writer).Closing
      ((transport.putQueue side { transport.queues side with writerClosed := true }).queues
        writer) := by
  obtain rfl | apart := eq_or_ne writer side
  · rw [putQueue_self]
    exact ⟨rfl, rfl, rfl, rfl, rfl, fun _ => rfl⟩
  · rw [putQueue_of_ne apart]
    exact .refl _

/-- An endpoint without references closes its ends of the queues. -/
theorem closeEndpoint_closing (transport : Transport) (side writer : Side) :
    (transport.queues writer).Closing ((transport.closeEndpoint side).queues writer) := by
  rw [closeEndpoint, putEndpoint_queues]
  obtain rfl | rfl := writer.eq_or_eq_other side
  · rw [putQueue_of_ne writer.ne_other, putQueue_self]
    exact ⟨rfl, rfl, rfl, rfl, rfl, fun _ => rfl⟩
  · rw [putQueue_self, inbound, putQueue_of_ne side.other_ne]
    exact ⟨rfl, rfl, rfl, rfl, rfl, id⟩

/-- The state behind a release. -/
theorem release_transport (globals : Globals) (transport : Transport) (side : Side) :
    (transport.release globals side).transport =
      let left := transport.putEndpoint side
        { transport.endpoints side with
          references := (transport.endpoints side).references - 1 }
      if (transport.endpoints side).references - 1 = 0 then left.closeEndpoint side else left := by
  have count : ((transport.putEndpoint side
      { transport.endpoints side with
        references := (transport.endpoints side).references - 1 }).endpoints side).references =
      (transport.endpoints side).references - 1 := by
    rw [putEndpoint_self]
  simp only [release, count]
  split_ifs <;> rfl

theorem release_answer (globals : Globals) (transport : Transport) (side : Side) :
    (transport.release globals side).answer = some (.status .ok) := by
  rw [release]
  split_ifs <;> rfl

theorem release_closing (globals : Globals) (transport : Transport) (side writer : Side) :
    (transport.queues writer).Closing
      ((transport.release globals side).transport.queues writer) := by
  rw [release_transport]
  split_ifs
  · exact closeEndpoint_closing _ side writer
  · exact .refl _

theorem release_capacity (globals : Globals) (transport : Transport) (side : Side) :
    (transport.release globals side).transport.capacity = transport.capacity := by
  rw [release_transport]
  split_ifs <;> rfl

end Transport

/-- What a call does to one direction. -/
theorem Did.flows {globals : Globals} {transport : Transport} {side : Side} {call : Call}
    {effect : Effect} (did : Did globals transport side call effect) {writer : Side}
    (sound : (transport.queues writer).Sound transport.capacity) :
    Flows transport side call effect writer := by
  cases did with
  | idle idle => exact flows_of_idle idle sound
  | retained =>
      exact .of_closing rfl rfl (.refl _) sound (fun _ => rfl) (fun _ => rfl) (by decide)
  | released =>
      exact .of_closing (transport.release_answer globals side)
        (transport.release_capacity globals side) (transport.release_closing globals side writer)
        sound (fun _ => rfl) (fun _ => rfl) (by decide)
  | received length filled =>
      obtain rfl | apart := eq_or_ne writer side.other
      · refine ⟨?_, ?_, fun closed => ⟨?_, ?_⟩, fun answer found ended => ?_⟩
        · change ((transport.putQueue _ _).queues _).Sound transport.capacity
          rw [Transport.putQueue_self]
          exact sound.read_sound length
        · simp only [Transport.announceTo, Slot.recorded, returned_single, accepted_single,
            Side.other_other, if_true, Transport.putQueue_self, Transport.putQueue_capacity]
          rw [returnedBy, Transport.inbound, sound.read_content, acceptedBy, ite_self,
            List.append_nil]
          exact fun _ _ ended => by cases ended
        · change ((transport.putQueue _ _).queues _).writerClosed = true
          rw [Transport.putQueue_self]
          exact closed
        · rw [Transport.announceTo, Slot.recorded, accepted_single, acceptedBy, ite_self]
          exact fun _ _ ended => by cases ended
        · rw [← Option.some.inj found] at ended
          cases ended
      · have same : ((transport.putQueue side.other
            ((transport.inbound side).read transport.capacity length).2.2).queues writer) =
            transport.queues writer := Transport.putQueue_of_ne apart _
        have reader : side ≠ writer.other := fun found => apart (by rw [found, Side.other_other])
        exact .of_closing rfl rfl (same.symm ▸ .refl _) sound (fun _ => rfl)
          (fun found => absurd found reader) fun ended => by cases ended
  | sent source unclosed room =>
      obtain rfl | apart := eq_or_ne writer side
      · refine ⟨?_, ?_, fun closed => ?_, fun answer found ended => ?_⟩
        · change ((transport.putQueue _ _).observeFull.queues _).Sound
            (transport.putQueue _ _).observeFull.capacity
          rw [Transport.observeFull_queues, Transport.observeFull_capacity,
            Transport.putQueue_self]
          exact sound.write_sound source
        · simp only [Transport.announceTo, Slot.recorded, returned_single, accepted_single,
            if_true, Transport.observeFull_queues, Transport.observeFull_capacity,
            Transport.putQueue_self, Transport.putQueue_capacity]
          rw [acceptedBy, Transport.outbound, sound.write_content, if_neg writer.ne_other,
            List.nil_append]
        · rw [Transport.outbound, closed] at unclosed
          cases unclosed
        · rw [← Option.some.inj found] at ended
          cases ended
      · have same : ((transport.putQueue side
            ((transport.outbound side).write transport.capacity source).2).observeFull.queues
              writer) = transport.queues writer := by
          rw [Transport.observeFull_queues, Transport.putQueue_of_ne apart]
        refine .of_closing rfl (Transport.observeFull_capacity _) ?_ sound
          (fun found => absurd found.symm apart) (fun _ => rfl) fun ended => by cases ended
        exact same.symm ▸ .refl _
  | closed =>
      exact .of_closing rfl rfl (transport.putQueue_closing side writer) sound (fun _ => rfl)
        (fun _ => rfl) (by decide)
  | aborted reason =>
      exact .of_closing rfl rfl (.refl _) sound (fun _ => rfl) (fun _ => rfl) (by decide)
  | cancelled =>
      exact .of_closing rfl rfl (.refl _) sound (fun _ => rfl) (fun _ => rfl)
        fun ended => by cases ended

/-- The streams of a transport. -/
structure Slot.Streams (slot : Slot) (writer : Side) : Prop where
  sound : (slot.transport.queues writer).Sound slot.transport.capacity
  stream : returned slot.history writer.other ++
    (slot.transport.queues writer).content slot.transport.capacity = accepted slot.history writer
  /-- The end of the stream is answered behind the last byte that is ever accepted. -/
  ended : ∀ {before after : List Record} {record : Record},
    slot.history = before ++ record :: after → record.side = writer.other →
      record.answer.code = .eof →
        (slot.transport.queues writer).writerClosed = true ∧
          returned before writer.other = accepted slot.history writer

/-- A record of a history that has grown by at most one. -/
theorem recorded_cases {history before after : List Record} {record : Record} {side : Side}
    {call : Call} {answer : Option Answer}
    (split : history ++ Slot.recorded side call answer = before ++ record :: after) :
    (∃ rest, history = before ++ record :: rest) ∨
      before = history ∧ ∃ found ∈ answer, record = ⟨side, call, found⟩ := by
  cases answer with
  | none => exact .inl ⟨after, (List.append_nil history).symm.trans split⟩
  | some answer =>
      rw [Slot.recorded] at split
      obtain rfl | ⟨rest, last, rfl⟩ := List.eq_nil_or_concat after
      · obtain ⟨same, final⟩ := List.append_inj' split rfl
        exact .inr ⟨same.symm, answer, rfl, (List.cons.inj final).1.symm⟩
      · rw [List.concat_eq_append, ← List.cons_append, ← List.append_assoc] at split
        exact .inl ⟨rest, (List.append_inj' split rfl).1⟩

theorem Slot.Streams.after {globals : Globals} {slot : Slot} {thread : ℕ} {side writer : Side}
    {call : Call} {effect : Effect} (streams : slot.Streams writer)
    (did : Did globals slot.transport side call effect) :
    (slot.after thread side call effect).Streams writer := by
  have flows := did.flows streams.sound
  have whole : accepted (slot.after thread side call effect).history writer =
      accepted slot.history writer ++ accepted (Slot.recorded side call effect.answer) writer :=
    accepted_append ..
  refine ⟨flows.sound, ?_, fun split reader ended => ?_⟩
  · rw [whole, ← streams.stream, Slot.after, returned_append, List.append_assoc, flows.balance,
      List.append_assoc]
  · obtain ⟨rest, old⟩ | ⟨rfl, answer, answered, rfl⟩ := recorded_cases split
    · obtain ⟨closed, all⟩ := streams.ended old reader ended
      obtain ⟨still, none_taken⟩ := flows.closed closed
      rw [whole, none_taken, List.append_nil]
      exact ⟨still, all⟩
    · obtain ⟨empty, closed⟩ := flows.ended answer answered ended reader
      obtain ⟨still, none_taken⟩ := flows.closed closed
      rw [whole, none_taken, List.append_nil, ← streams.stream, Queue.content, empty, window_zero,
        List.append_nil]
      exact ⟨still, rfl⟩

theorem empty_totals :
    Queue.empty.totalWritten - Queue.empty.totalRead = UInt64.ofNat Queue.empty.length := by
  decide

/-- A transport that was just created. -/
theorem create_streams {structSize : ℕ} {globals after : Globals} {generation capacity : ℕ}
    {provision : Provision} {transport : Transport}
    (made : create structSize globals generation capacity provision = .ok (after, transport))
    (writer : Side) :
    Slot.Streams { transport, waiters := fun _ => none, destructions := 0, history := []
                   notified := [] } writer := by
  unfold create at made
  split_ifs at made with refused large
  · cases provision with
    | granted =>
        cases made
        have some_capacity : capacity ≠ 0 := fun found => refused (.inr found)
        have bounded : 2 * capacity < sizeValues := by
          simp only [sizeMaximum, sizeValues] at large ⊢
          omega
        have positive := Nat.pos_of_ne_zero some_capacity
        exact
          { sound := ⟨positive, bounded, positive, Nat.zero_le _, empty_totals⟩
            stream := rfl
            ended := fun split => absurd split (by simp) }
    | noMemory => cases made
    | failed => cases made

/-- In every run, for each direction of each transport: what the reads of one side returned and
what is queued are what the writes of the other side accepted, the queue is in its bounds, its
arithmetic does not wrap, and the end of the stream is answered only after the writer has closed
and every byte that was ever accepted has been returned. -/
theorem streams_conserved {structSize : ℕ} {world : World} (reached : world.Reached structSize)
    {slot : Slot} (member : slot ∈ world.slots) (writer : Side) :
    (returned slot.history writer.other ++
        (slot.transport.queues writer).content slot.transport.capacity =
      accepted slot.history writer) ∧
    (slot.transport.queues writer).length ≤ slot.transport.capacity ∧
    (slot.transport.queues writer).head < slot.transport.capacity ∧
    (slot.transport.queues writer).totalWritten - (slot.transport.queues writer).totalRead =
      UInt64.ofNat (slot.transport.queues writer).length ∧
    (slot.transport.queues writer).Exact slot.transport.capacity ∧
    ∀ before record after, slot.history = before ++ record :: after →
      record.side = writer.other → record.answer.code = .eof →
        (slot.transport.queues writer).writerClosed = true ∧
          returned before writer.other = accepted slot.history writer := by
  have streams := reached.slots (motive := fun slot => slot.Streams writer)
    (fun made => create_streams made writer) (fun before _ did => before.after did) slot member
  exact ⟨streams.stream, streams.sound.length, streams.sound.head, streams.sound.totals,
    streams.sound.exact, fun _ _ _ => streams.ended⟩

/-- The frontend writes around the end of a queue of four bytes; the backend reads in between, and a
thread of the backend sleeps behind the last read. -/
def wrappedActions : List Action :=
  [.create 7 4 .granted, .call 0 0 .frontend 7 (.write [1, 2, 3]),
    .call 0 1 .backend 7 (.read 2), .call 0 0 .frontend 7 (.write [4, 5, 6, 7]),
    .call 0 1 .backend 7 (.read 9), .call 0 2 .backend 7 (.wait 1 0 noDeadline)]

/-- The world behind these steps. -/
def wrapped : World := (runs (World.step 392) World.initial wrappedActions).getD World.initial

theorem wrapped_reached : wrapped.Reached 392 := by
  have ran : (runs (World.step 392) World.initial wrappedActions).isSome = true := by decide
  obtain ⟨world, found⟩ := Option.isSome_iff_exists.1 ran
  exact ⟨wrappedActions, by rw [wrapped, found, Option.getD_some]⟩

/-- The slot of the only transport of that world. -/
theorem wrapped_slot : ∃ slot, wrapped.slots[0]? = some slot ∧
    accepted slot.history .frontend = [1, 2, 3, 4, 5, 6] :=
  ⟨_, rfl, by decide⟩

/-- The six bytes that were accepted, of seven, arrive in their order. -/
theorem streams_conserved_wrapped : ∃ slot ∈ wrapped.slots,
    returned slot.history .backend ++
      (slot.transport.queues .frontend).content slot.transport.capacity = [1, 2, 3, 4, 5, 6] := by
  obtain ⟨slot, found, sent⟩ := wrapped_slot
  have member := List.mem_of_getElem? found
  exact ⟨slot, member, (streams_conserved wrapped_reached member .frontend).1.trans sent⟩

end Postgamma.Embedded.MemoryTransport
