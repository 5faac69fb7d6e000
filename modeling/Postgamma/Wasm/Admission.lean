import Mathlib
import Postgamma.Wasm.SerialQueue

/-!
# The admission of a connection

`Connection.admit` of `database.ts` counts the bytes and the queries of the jobs that a connection
has admitted to its own queue and to those of its transactions.  The release that it returns is the
`onFinish` of the job.
-/

namespace Postgamma.Wasm

/-- `limits`. -/
structure QueueLimits where
  maxPendingCommands : ℕ
  commandBytes : ℕ
  connectionQueueBytes : ℕ

/-- The counters of `Connection` and its queues: its own and one for each transaction. -/
structure Connection where
  /-- `closing` or `archiveFrozen`. -/
  refusing : Bool
  opened : ℕ
  queues : ℕ → SerialQueue
  /-- The bytes of a job of a queue. -/
  bytes : ℕ → ℕ → ℕ
  queuedBytes : ℤ
  queuedQueries : ℤ

namespace Connection

/-- A new connection. -/
def init : Connection := ⟨false, 1, fun _ => SerialQueue.init, fun _ _ => 0, 0, 0⟩

/-- `Connection.admit`; a refusal throws. -/
def admitJob (connection : Connection) (limits : QueueLimits) (bytes : ℕ) : Option Connection :=
  if connection.refusing then none
  else if (limits.maxPendingCommands : ℤ) ≤ connection.queuedQueries then none
  else if limits.commandBytes < bytes ∨
      (limits.connectionQueueBytes : ℤ) < connection.queuedBytes + bytes then none
  else
    some { connection with
      queuedBytes := connection.queuedBytes + bytes
      queuedQueries := connection.queuedQueries + 1 }

/-- A queue changes, and the releases of the jobs that it finishes are called. -/
def follow (connection : Connection) (index : ℕ) (queue : SerialQueue) : Connection :=
  let released := queue.finishes.drop (connection.queues index).finishes.length
  { connection with
    queues := Function.update connection.queues index queue
    queuedBytes := connection.queuedBytes -
      (released.map fun job => (connection.bytes index job : ℤ)).sum
    queuedQueries := connection.queuedQueries - released.length }

/-- The bytes of the next job of a queue are noted. -/
def note (connection : Connection) (index bytes : ℕ) : Connection :=
  { connection with
    bytes := Function.update connection.bytes index
      (Function.update (connection.bytes index) (connection.queues index).submitted bytes) }

/-- `enqueue` of the connection or `submit` of a transaction. -/
def enqueue (connection : Connection) (limits : QueueLimits) (index bytes : ℕ)
    (options : ControlOptions) : Connection :=
  match connection.admitJob limits bytes with
  | none => connection
  | some admitted =>
      (admitted.note index bytes).follow index ((connection.queues index).run options)

/-- A step of a connection. -/
inductive Step (limits : QueueLimits) (connection : Connection) : Connection → Prop
  | enqueue {index : ℕ} (bytes : ℕ) (options : ControlOptions) : index < connection.opened →
      Step limits connection (connection.enqueue limits index bytes options)
  | queue {index : ℕ} {queue : SerialQueue} : index < connection.opened →
      SerialQueue.Step (connection.queues index) queue →
      Step limits connection (connection.follow index queue)
  | begin : Step limits connection { connection with opened := connection.opened + 1 }
  | refuse (refusing : Bool) : Step limits connection { connection with refusing }

/-- The connections that the steps lead to. -/
inductive Reachable (limits : QueueLimits) : Connection → Prop
  | init : Reachable limits init
  | step {connection after : Connection} : Reachable limits connection →
      Step limits connection after → Reachable limits after

end Connection

namespace SerialQueue

variable {queue after : SerialQueue}

/-- The jobs that are not finished. -/
def unfinished (queue : SerialQueue) : Finset ℕ :=
  (Finset.range queue.submitted).filter fun job => queue.finished job = false

/-- The jobs are finished or not. -/
theorem Counted.sum_unfinished (counted : queue.Counted) (measure : ℕ → ℤ) :
    ∑ job ∈ queue.unfinished, measure job + (queue.finishes.map measure).sum =
      ∑ job ∈ Finset.range queue.submitted, measure job := by
  have done : queue.finishes.toFinset =
      (Finset.range queue.submitted).filter fun job => ¬queue.finished job = false := by
    ext job
    simp only [List.mem_toFinset, counted.mem, Finset.mem_filter, Finset.mem_range,
      Bool.not_eq_false]
    exact ⟨fun finished => ⟨counted.lt job finished, finished⟩, fun both => both.2⟩
  rw [← List.sum_toFinset measure counted.nodup, done, unfinished]
  exact Finset.sum_filter_add_sum_filter_not _ _ _

/-- A change of a queue that submits nothing and calls `onFinish` again. -/
structure Finishes (before after : SerialQueue) : Prop where
  submitted : after.submitted = before.submitted
  finishes : before.finishes <+: after.finishes

theorem Finishes.refl (queue : SerialQueue) : Finishes queue queue := ⟨rfl, List.prefix_refl _⟩

theorem Finishes.trans {before middle : SerialQueue} (first : Finishes before middle)
    (second : Finishes middle after) : Finishes before after :=
  ⟨second.submitted.trans first.submitted, first.finishes.trans second.finishes⟩

theorem finish_finishes (queue : SerialQueue) (job : ℕ) : Finishes queue (queue.finish job) := by
  rw [SerialQueue.finish]
  split_ifs
  · exact .refl queue
  · exact ⟨rfl, List.prefix_append _ _⟩

theorem notifyIdle_finishes (queue : SerialQueue) : Finishes queue queue.notifyIdle := by
  rw [notifyIdle]
  split_ifs <;> exact ⟨rfl, List.prefix_refl _⟩

theorem dispatch_finishes (queue : SerialQueue) : Finishes queue queue.dispatch := by
  rw [dispatch]
  split_ifs
  · exact .refl queue
  · cases queue.pending with
    | nil => exact notifyIdle_finishes queue
    | cons job rest => exact ⟨rfl, List.prefix_refl _⟩

theorem abort_finishes (queue : SerialQueue) (job : ℕ) : Finishes queue (queue.abort job) := by
  rw [abort]
  split_ifs
  · exact .refl queue
  · have finished := finish_finishes ((queue.mark job).withPending (queue.pending.erase job)) job
    have notified := finished.trans (notifyIdle_finishes _)
    exact ⟨notified.submitted, notified.finishes⟩
  · exact ⟨rfl, List.prefix_refl _⟩

theorem foldl_finishes (jobs : List ℕ) (queue : SerialQueue) :
    Finishes queue (jobs.foldl abort queue) := by
  induction jobs generalizing queue with
  | nil => exact .refl queue
  | cons job jobs induction => exact (abort_finishes queue job).trans (induction _)

theorem Step.finishes (step : Step queue after) : Finishes queue after := by
  cases step with
  | abort known => exact abort_finishes queue _
  | stop =>
      have folded := foldl_finishes queue.pending { queue with closed := true }
      have stopped : Finishes { queue with closed := true } queue.stop := by
        rw [SerialQueue.stop, abortActive]
        split
        · exact folded
        · exact folded.trans (abort_finishes _ _)
      exact ⟨stopped.submitted, stopped.finishes⟩
  | idle waiter busy => exact ⟨rfl, List.prefix_refl _⟩
  | @dispatch front behind tasks =>
      have dispatched := dispatch_finishes (queue.withTasks (front ++ behind))
      exact ⟨dispatched.submitted, dispatched.finishes⟩
  | start tasks =>
      rw [SerialQueue.start]
      split_ifs <;> exact ⟨rfl, List.prefix_refl _⟩
  | settle running => exact ⟨rfl, List.prefix_refl _⟩
  | @complete job front behind tasks =>
      have finished := finish_finishes (queue.withTasks (front ++ behind)) job
      have freed : Finishes (queue.withTasks (front ++ behind))
          (((queue.withTasks (front ++ behind)).finish job).withActive none) :=
        ⟨finished.submitted, finished.finishes⟩
      have completed := freed.trans (dispatch_finishes _)
      exact ⟨completed.submitted, completed.finishes⟩

/-- What a change of a queue does to a sum over its unfinished jobs. -/
theorem Counted.sum_follow {before : SerialQueue} (counted : before.Counted)
    (kept : after.Counted) (finishes : before.finishes <+: after.finishes) (measure : ℕ → ℤ) :
    ∑ job ∈ after.unfinished, measure job =
      ∑ job ∈ before.unfinished, measure job +
        (∑ job ∈ Finset.range after.submitted, measure job -
          ∑ job ∈ Finset.range before.submitted, measure job) -
        ((after.finishes.drop before.finishes.length).map measure).sum := by
  obtain ⟨released, appended⟩ := finishes
  have first := counted.sum_unfinished measure
  have second := kept.sum_unfinished measure
  rw [← appended, List.map_append, List.sum_append] at second
  rw [← appended, List.drop_left]
  omega

theorem run_finishes (queue : SerialQueue) (options : ControlOptions) :
    queue.finishes <+: (queue.run options).finishes ∧
      (queue.run options).submitted = queue.submitted + 1 := by
  rw [run]
  split_ifs
  · have finished := finish_finishes queue.counting queue.submitted
    exact ⟨finished.finishes, finished.submitted⟩
  · exact ⟨List.prefix_refl _, rfl⟩

end SerialQueue

namespace Connection

variable {connection after : Connection} {limits : QueueLimits}

/-- The sum of a measure of the unfinished jobs of all queues. -/
def outstanding (connection : Connection) (measure : ℕ → ℕ → ℤ) : ℤ :=
  ∑ index ∈ Finset.range connection.opened,
    ∑ job ∈ (connection.queues index).unfinished, measure index job

/-- What holds of the counters of a connection. -/
structure Accounted (limits : QueueLimits) (connection : Connection) : Prop where
  queues : ∀ index, SerialQueue.Reachable (connection.queues index)
  unopened : ∀ index, connection.opened ≤ index → connection.queues index = SerialQueue.init
  queries : connection.queuedQueries = connection.outstanding fun _ _ => 1
  bytes : connection.queuedBytes =
    connection.outstanding fun index job => connection.bytes index job
  queries_le : connection.queuedQueries ≤ limits.maxPendingCommands
  bytes_le : connection.queuedBytes ≤ limits.connectionQueueBytes

theorem init_accounted (limits : QueueLimits) : init.Accounted limits where
  queues := fun _ => .init
  unopened := fun _ _ => rfl
  queries := rfl
  bytes := rfl
  queries_le := Int.natCast_nonneg _
  bytes_le := Int.natCast_nonneg _

/-- Only the changed queue counts. -/
theorem outstanding_update {index : ℕ} (opened : index < connection.opened) (queue : SerialQueue)
    (measure : ℕ → ℕ → ℤ) :
    ({ connection with queues := Function.update connection.queues index queue } :
        Connection).outstanding measure =
      connection.outstanding measure + ∑ job ∈ queue.unfinished, measure index job -
        ∑ job ∈ (connection.queues index).unfinished, measure index job := by
  have member := Finset.mem_range.mpr opened
  rw [outstanding, outstanding, ← Finset.add_sum_erase _ _ member,
    ← Finset.add_sum_erase (Finset.range connection.opened) _ member]
  have others : ∀ other ∈ (Finset.range connection.opened).erase index,
      ∑ job ∈ (Function.update connection.queues index queue other).unfinished,
          measure other job =
        ∑ job ∈ (connection.queues other).unfinished, measure other job := by
    intro other away
    rw [Function.update_of_ne (Finset.ne_of_mem_erase away)]
  rw [Finset.sum_congr rfl others]
  simp only [Function.update_self]
  ring

theorem sum_map_one (jobs : List ℕ) : (jobs.map fun _ => (1 : ℤ)).sum = jobs.length := by
  induction jobs with
  | nil => rfl
  | cons job jobs induction =>
      rw [List.map_cons, List.sum_cons, induction, List.length_cons]
      push_cast
      ring

theorem sum_map_nonneg (jobs : List ℕ) (bytes : ℕ → ℕ) :
    0 ≤ (jobs.map fun job => (bytes job : ℤ)).sum := by
  induction jobs with
  | nil => rfl
  | cons job jobs induction =>
      rw [List.map_cons, List.sum_cons]
      exact add_nonneg (Int.natCast_nonneg _) induction

/-- The counters follow a queue that counts one more job or none. -/
theorem Accounted.follow {index submitted : ℕ} {queue : SerialQueue}
    (reachable : ∀ other, SerialQueue.Reachable (connection.queues other))
    (unopened : ∀ other, connection.opened ≤ other → connection.queues other = SerialQueue.init)
    (opened : index < connection.opened) (kept : SerialQueue.Reachable queue)
    (finishes : (connection.queues index).finishes <+: queue.finishes)
    (counts : queue.submitted = (connection.queues index).submitted + submitted)
    (queries : connection.queuedQueries = connection.outstanding (fun _ _ => 1) + submitted)
    (bytes : connection.queuedBytes =
      connection.outstanding (fun other job => connection.bytes other job) +
        ∑ job ∈ Finset.range submitted,
          (connection.bytes index ((connection.queues index).submitted + job) : ℤ))
    (queries_le : connection.queuedQueries ≤ limits.maxPendingCommands)
    (bytes_le : connection.queuedBytes ≤ limits.connectionQueueBytes) :
    (connection.follow index queue).Accounted limits := by
  have sums := fun measure : ℕ → ℤ =>
    (reachable index).sound.ordered.counted.sum_follow kept.sound.ordered.counted finishes measure
  have more : ∀ measure : ℕ → ℤ, ∑ job ∈ Finset.range queue.submitted, measure job -
      ∑ job ∈ Finset.range (connection.queues index).submitted, measure job =
        ∑ job ∈ Finset.range submitted, measure ((connection.queues index).submitted + job) := by
    intro measure
    rw [counts, Finset.sum_range_add]
    ring
  exact {
    queues := fun other => by
      rcases eq_or_ne other index with rfl | different
      · simpa [Connection.follow] using kept
      · simpa [Connection.follow, different] using reachable other
    unopened := fun other beyond => by
      have different : other ≠ index := by
        rintro rfl
        exact absurd opened (not_lt.mpr beyond)
      simpa [Connection.follow, different] using unopened other beyond
    queries := by
      have moved := outstanding_update opened queue fun _ _ => 1
      rw [sums, more, sum_map_one] at moved
      have same : (connection.follow index queue).outstanding (fun _ _ => 1) =
          ({ connection with queues := Function.update connection.queues index queue } :
            Connection).outstanding fun _ _ => 1 := rfl
      rw [same, moved, Connection.follow, queries]
      simp only [Finset.sum_const, Finset.card_range, nsmul_eq_mul, mul_one]
      ring
    bytes := by
      have moved := outstanding_update opened queue fun other job => connection.bytes other job
      rw [sums, more] at moved
      have same : (connection.follow index queue).outstanding
            (fun other job => (connection.follow index queue).bytes other job) =
          ({ connection with queues := Function.update connection.queues index queue } :
            Connection).outstanding fun other job => connection.bytes other job := rfl
      rw [same, moved, Connection.follow, bytes]
      ring
    queries_le := by
      have fewer := Int.natCast_nonneg
        (queue.finishes.drop (connection.queues index).finishes.length).length
      simp only [Connection.follow]
      omega
    bytes_le := by
      have fewer := sum_map_nonneg
        (queue.finishes.drop (connection.queues index).finishes.length) (connection.bytes index)
      simp only [Connection.follow]
      omega }

/-- The bytes of the next job do not count yet. -/
theorem outstanding_note (connection : Connection) (index bytes : ℕ) :
    (connection.note index bytes).outstanding
        (fun other job => (connection.note index bytes).bytes other job) =
      connection.outstanding fun other job => connection.bytes other job := by
  refine Finset.sum_congr rfl fun other _ => Finset.sum_congr rfl fun job member => ?_
  have small : job < (connection.queues other).submitted :=
    Finset.mem_range.mp (Finset.mem_filter.mp member).1
  rcases eq_or_ne other index with rfl | different
  · simp [note, small.ne]
  · simp [note, different]

theorem Accounted.enqueue (accounted : connection.Accounted limits) {index : ℕ}
    (opened : index < connection.opened) (bytes : ℕ) (options : ControlOptions) :
    (connection.enqueue limits index bytes options).Accounted limits := by
  rw [Connection.enqueue, admitJob]
  split_ifs with refusing full large
  · exact accounted
  · exact accounted
  · exact accounted
  · obtain ⟨finishes, counts⟩ := SerialQueue.run_finishes (connection.queues index) options
    simp only [not_le, not_or, not_lt] at full large
    refine Accounted.follow accounted.queues accounted.unopened opened
      ((accounted.queues index).run options) finishes counts ?_ ?_ ?_ ?_
    · exact congrArg (· + 1) accounted.queries
    · have noted := outstanding_note { connection with
        queuedBytes := connection.queuedBytes + bytes
        queuedQueries := connection.queuedQueries + 1 } index bytes
      rw [noted]
      refine (congrArg (· + (bytes : ℤ)) accounted.bytes).trans (congrArg _ ?_)
      simp [note]
    · exact full
    · exact large.2

theorem Step.accounted (step : Step limits connection after)
    (accounted : connection.Accounted limits) : after.Accounted limits := by
  cases step with
  | enqueue bytes options opened => exact accounted.enqueue opened bytes options
  | @queue index queue opened step =>
      obtain ⟨submitted, finishes⟩ := step.finishes
      exact @Accounted.follow connection limits index 0 queue accounted.queues accounted.unopened
        opened ((accounted.queues index).step step) finishes submitted
        (by simpa using accounted.queries) (by simpa using accounted.bytes)
        accounted.queries_le accounted.bytes_le
  | begin =>
      have empty := accounted.unopened connection.opened le_rfl
      exact {
        queues := accounted.queues
        unopened := fun other beyond => accounted.unopened other (Nat.le_of_succ_le beyond)
        queries := by
          rw [outstanding, Finset.sum_range_succ, empty]
          exact accounted.queries.trans (add_zero _).symm
        bytes := by
          rw [outstanding, Finset.sum_range_succ, empty]
          exact accounted.bytes.trans (add_zero _).symm
        queries_le := accounted.queries_le
        bytes_le := accounted.bytes_le }
  | refuse refusing => exact { accounted with }

theorem Reachable.accounted (reachable : Reachable limits connection) :
    connection.Accounted limits := by
  induction reachable with
  | init => exact init_accounted limits
  | step reachable step induction => exact step.accounted induction

end Connection
end Postgamma.Wasm
