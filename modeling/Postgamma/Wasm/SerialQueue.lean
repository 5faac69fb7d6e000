import Mathlib

/-!
# The queue of a connection

`queue.ts`: jobs wait in a set, one of them is active, and each of them may be aborted by its
signals, by its time limit or by the stop of the queue.  A call and a microtask are one step each;
microtasks run in any order.  Jobs are numbered in the order of the calls of `run`.
-/

namespace Postgamma.Wasm

/-- `ControlOptions`, with whether a signal is already aborted. -/
structure ControlOptions where
  timeoutMs : Option ℤ
  aborted : Bool

/-- The constructor of `OperationControl` throws, or its `check` does. -/
def ControlOptions.refused (options : ControlOptions) : Bool :=
  options.aborted ||
    options.timeoutMs.any fun limit => decide (limit < 0 ∨ 2147483647 < limit ∨ limit = 0)

/-- The microtasks of a queue. -/
inductive Task
  | dispatch
  /-- The check of the control and the call of the action. -/
  | start (job : ℕ)
  /-- The handler of the settled action. -/
  | complete (job : ℕ)
  deriving DecidableEq

def Task.job : Task → Option ℕ
  | .dispatch => none
  | .start job => some job
  | .complete job => some job

/-- `SerialQueue`, with the lists of what has been called. -/
structure SerialQueue where
  pending : List ℕ
  active : Option ℕ
  closed : Bool
  waiters : List ℕ
  tasks : List Task
  /-- The jobs whose actions have been called and are not settled. -/
  running : List ℕ
  /-- The number of calls of `run`. -/
  submitted : ℕ
  /-- `control.signal.aborted`. -/
  aborted : ℕ → Bool
  /-- The flag of `finish`. -/
  finished : ℕ → Bool
  /-- The calls of `onFinish`. -/
  finishes : List ℕ
  /-- The calls of `action`. -/
  starts : List ℕ
  /-- The jobs that were aborted in front of their start. -/
  early : List ℕ

namespace SerialQueue

/-- A new queue. -/
def init : SerialQueue :=
  ⟨[], none, false, [], [], [], 0, fun _ => false, fun _ => false, [], [], []⟩

/-- The queue with other pending jobs. -/
def withPending (queue : SerialQueue) (pending : List ℕ) : SerialQueue := { queue with pending }

/-- The queue with another active job. -/
def withActive (queue : SerialQueue) (active : Option ℕ) : SerialQueue := { queue with active }

/-- The queue with other microtasks. -/
def withTasks (queue : SerialQueue) (tasks : List Task) : SerialQueue := { queue with tasks }

/-- The queue behind the number of another job. -/
def counting (queue : SerialQueue) : SerialQueue :=
  { queue with submitted := queue.submitted + 1 }

def size (queue : SerialQueue) : ℕ := queue.pending.length + queue.active.toList.length

def notifyIdle (queue : SerialQueue) : SerialQueue :=
  if queue.size = 0 then { queue with waiters := [] } else queue

/-- The closure `finish` of a job. -/
def finish (queue : SerialQueue) (job : ℕ) : SerialQueue :=
  if queue.finished job then queue
  else
    { queue with
      finished := Function.update queue.finished job true
      finishes := queue.finishes ++ [job] }

def dispatch (queue : SerialQueue) : SerialQueue :=
  if queue.active ≠ none then queue
  else
    match queue.pending with
    | [] => queue.notifyIdle
    | job :: rest =>
        { queue with
          pending := rest
          active := some job
          tasks := queue.tasks ++ [.start job] }

def run (queue : SerialQueue) (options : ControlOptions) : SerialQueue :=
  if queue.closed || options.refused then
    queue.counting.finish queue.submitted
  else
    { queue with
      pending := queue.pending ++ [queue.submitted]
      tasks := queue.tasks ++ [.dispatch]
      submitted := queue.submitted + 1 }

/-- The control of a job is aborted. -/
def mark (queue : SerialQueue) (job : ℕ) : SerialQueue :=
  { queue with
    aborted := Function.update queue.aborted job true
    early := if job ∈ queue.starts then queue.early else queue.early ++ [job] }

/-- The abort of the control of a job; the listener of the queue is gone when the job is
finished. -/
def abort (queue : SerialQueue) (job : ℕ) : SerialQueue :=
  if queue.aborted job then queue
  else if queue.finished job = false ∧ job ∈ queue.pending then
    (((queue.mark job).withPending (queue.pending.erase job)).finish job).notifyIdle
  else queue.mark job

def abortActive (queue : SerialQueue) : SerialQueue :=
  match queue.active with
  | none => queue
  | some job => queue.abort job

def stop (queue : SerialQueue) : SerialQueue :=
  (queue.pending.foldl abort { queue with closed := true }).abortActive

/-- The microtask that starts a job. -/
def start (queue : SerialQueue) (job : ℕ) : SerialQueue :=
  if queue.aborted job then { queue with tasks := queue.tasks ++ [.complete job] }
  else
    { queue with
      starts := queue.starts ++ [job]
      running := queue.running ++ [job] }

/-- The handler of a settled job. -/
def complete (queue : SerialQueue) (job : ℕ) : SerialQueue :=
  ((queue.finish job).withActive none).dispatch

/-- A step of the queue other than `run`. -/
inductive Step (queue : SerialQueue) : SerialQueue → Prop
  | abort {job : ℕ} : job < queue.submitted → Step queue (queue.abort job)
  | stop : Step queue queue.stop
  | idle (waiter : ℕ) : queue.size ≠ 0 →
      Step queue { queue with waiters := queue.waiters ++ [waiter] }
  | dispatch {front behind : List Task} : queue.tasks = front ++ .dispatch :: behind →
      Step queue (queue.withTasks (front ++ behind)).dispatch
  | start {job : ℕ} {front behind : List Task} : queue.tasks = front ++ .start job :: behind →
      Step queue ((queue.withTasks (front ++ behind)).start job)
  | settle {job : ℕ} {front behind : List ℕ} : queue.running = front ++ job :: behind →
      Step queue
        { queue with running := front ++ behind, tasks := queue.tasks ++ [.complete job] }
  | complete {job : ℕ} {front behind : List Task} :
      queue.tasks = front ++ .complete job :: behind →
      Step queue ((queue.withTasks (front ++ behind)).complete job)

/-- The queues that calls and microtasks lead to. -/
inductive Reachable : SerialQueue → Prop
  | init : Reachable init
  | run {queue : SerialQueue} (options : ControlOptions) : Reachable queue →
      Reachable (queue.run options)
  | step {queue after : SerialQueue} : Reachable queue → Step queue after → Reachable after

/-- The jobs that a microtask or an action still works for. -/
def engaged (queue : SerialQueue) : List ℕ := queue.tasks.filterMap Task.job ++ queue.running

/-- What holds of the calls of `onFinish`. -/
structure Counted (queue : SerialQueue) : Prop where
  nodup : queue.finishes.Nodup
  mem : ∀ job, job ∈ queue.finishes ↔ queue.finished job = true
  lt : ∀ job, queue.finished job = true → job < queue.submitted

/-- What holds of the jobs of a queue at every time. -/
structure Ordered (queue : SerialQueue) : Prop where
  counted : queue.Counted
  sorted : queue.pending.Pairwise (· < ·)
  pending : ∀ job ∈ queue.pending, job < queue.submitted ∧ queue.finished job = false
  active : ∀ job, queue.active = some job → job < queue.submitted ∧ queue.finished job = false ∧
    ∀ later ∈ queue.pending, job < later
  engaged : queue.engaged = queue.active.toList
  unfinished : ∀ job < queue.submitted, queue.finished job = false →
    job ∈ queue.pending ∨ queue.active = some job
  starts_sorted : queue.starts.Pairwise (· < ·)
  starts : ∀ job ∈ queue.starts, job < queue.submitted ∧ (∀ later ∈ queue.pending, job < later) ∧
    ∀ busy, queue.active = some busy → job ≤ busy
  unstarted : ∀ job, Task.start job ∈ queue.tasks → job ∉ queue.starts
  early : ∀ job ∈ queue.early, queue.aborted job = true ∧ job ∉ queue.starts

/-- A job waits only while another one is active or a dispatch is to come. -/
def Roused (queue : SerialQueue) : Prop :=
  queue.pending ≠ [] → queue.active = none → Task.dispatch ∈ queue.tasks

/-- An aborted job was submitted and waits no longer. -/
def Withdrawn (queue : SerialQueue) : Prop :=
  ∀ job, queue.aborted job = true → job < queue.submitted ∧ job ∉ queue.pending

variable {queue after : SerialQueue}

theorem init_ordered : init.Ordered where
  counted := ⟨.nil, by simp [init], by simp [init]⟩
  sorted := .nil
  pending := by simp [init]
  active := by simp [init]
  engaged := rfl
  unfinished := by simp [init]
  starts_sorted := .nil
  starts := by simp [init]
  unstarted := by simp [init]
  early := by simp [init]

theorem finish_unfinished {job : ℕ} (open_ : queue.finished job = false) :
    queue.finish job =
      { queue with
        finished := Function.update queue.finished job true
        finishes := queue.finishes ++ [job] } :=
  if_neg (by simp [open_])

theorem finish_withPending (queue : SerialQueue) (job : ℕ) (pending : List ℕ) :
    (queue.withPending pending).finish job = (queue.finish job).withPending pending := by
  cases done : queue.finished job with
  | true => simp [SerialQueue.finish, withPending, done]
  | false => simp [SerialQueue.finish, withPending, done]

theorem Counted.finish (counted : queue.Counted) {job : ℕ} (known : job < queue.submitted) :
    (queue.finish job).Counted := by
  cases done : queue.finished job with
  | true =>
      rw [SerialQueue.finish, if_pos done]
      exact counted
  | false =>
      rw [finish_unfinished done]
      refine ⟨?_, fun other => ?_, fun other finished => ?_⟩
      · refine List.nodup_append.mpr ⟨counted.nodup, List.nodup_singleton job, ?_⟩
        intro other member last single same
        obtain rfl := List.mem_singleton.mp single
        rw [same, counted.mem, done] at member
        cases member
      · rcases eq_or_ne other job with rfl | different
        · simp
        · simp [different, counted.mem]
      · rcases eq_or_ne other job with rfl | different
        · exact known
        · simp only [Function.update_of_ne different] at finished
          exact counted.lt other finished

theorem Counted.carry (counted : queue.Counted) (finishes : after.finishes = queue.finishes)
    (finished : after.finished = queue.finished) (submitted : queue.submitted ≤ after.submitted) :
    after.Counted where
  nodup := finishes ▸ counted.nodup
  mem := fun job => by rw [finishes, finished, counted.mem]
  lt := fun job done => (counted.lt job (finished ▸ done)).trans_le submitted

theorem Ordered.notifyIdle (ordered : queue.Ordered) : queue.notifyIdle.Ordered := by
  rw [SerialQueue.notifyIdle]
  split_ifs
  · exact { ordered with counted := ordered.counted.carry rfl rfl le_rfl }
  · exact ordered

theorem Ordered.dispatch (ordered : queue.Ordered) :
    queue.dispatch.Ordered ∧ queue.dispatch.Roused := by
  rw [SerialQueue.dispatch]
  split_ifs with busy
  · exact ⟨ordered, fun _ free => absurd free busy⟩
  have free : queue.active = none := not_not.mp busy
  cases waiting : queue.pending with
  | nil =>
      refine ⟨ordered.notifyIdle, fun some_pending => ?_⟩
      rw [SerialQueue.notifyIdle] at some_pending
      split_ifs at some_pending <;> exact absurd waiting some_pending
  | cons job rest =>
      have sorted := ordered.sorted
      rw [waiting, List.pairwise_cons] at sorted
      have known := ordered.pending job (by simp [waiting])
      have idle := ordered.engaged
      rw [free] at idle
      refine ⟨⟨ordered.counted.carry rfl rfl le_rfl, sorted.2, fun later member => ?_, ?_, ?_, ?_,
        ordered.starts_sorted, ?_, ?_, ordered.early⟩, fun _ taken => by cases taken⟩
      · exact ordered.pending later (by simp [waiting, member])
      · rintro _ ⟨⟩
        exact ⟨known.1, known.2, sorted.1⟩
      · simp only [SerialQueue.engaged, List.filterMap_append, List.append_assoc] at idle ⊢
        simp_all [Task.job]
      · intro other submitted unfinished
        rcases ordered.unfinished other submitted unfinished with member | taken
        · rw [waiting, List.mem_cons] at member
          rcases member with rfl | member
          · exact .inr rfl
          · exact .inl member
        · rw [free] at taken
          cases taken
      · intro other started
        obtain ⟨submitted, before, -⟩ := ordered.starts other started
        rw [waiting] at before
        refine ⟨submitted, fun later member => before later (by simp [member]), ?_⟩
        rintro _ ⟨⟩
        exact (before job (by simp)).le
      · intro other member
        rcases List.mem_append.mp member with member | member
        · exact ordered.unstarted other member
        · obtain rfl : other = job := by simpa using member
          intro started
          have before := (ordered.starts other started).2.1 other (by simp [waiting])
          exact lt_irrefl other before

/-- A job leaves the queue or the active place when it is finished. -/
theorem Ordered.finishes (ordered : queue.Ordered) {job : ℕ} (known : job < queue.submitted)
    (left : queue.finished job = false) {pending : List ℕ} {active : Option ℕ}
    {tasks : List Task} (kept : pending.Sublist queue.pending)
    (others : ∀ other ∈ queue.pending, other ≠ job → other ∈ pending)
    (gone : job ∉ pending) (busy : active = queue.active ∧ active ≠ some job ∨
      active = none ∧ queue.active = some job)
    (fewer : tasks.Sublist queue.tasks)
    (engaged : tasks.filterMap Task.job ++ queue.running = active.toList) :
    ((((queue.finish job).withPending pending).withActive active).withTasks tasks).Ordered := by
  have unfinished : ∀ other, other ≠ job → (queue.finish job).finished other =
      queue.finished other := by
    intro other different
    simp [finish_unfinished left, different]
  have active_eq : ∀ other, active = some other → queue.active = some other ∧ other ≠ job := by
    rintro other rfl
    rcases busy with ⟨same, different⟩ | ⟨impossible, -⟩
    · exact ⟨same.symm, fun equal => different (equal ▸ rfl)⟩
    · cases impossible
  have same : (queue.finish job).submitted = queue.submitted ∧
      (queue.finish job).running = queue.running ∧ (queue.finish job).starts = queue.starts ∧
      (queue.finish job).early = queue.early ∧ (queue.finish job).aborted = queue.aborted := by
    rw [finish_unfinished left]
    exact ⟨rfl, rfl, rfl, rfl, rfl⟩
  obtain ⟨submitted, running, starts, early, aborted⟩ := same
  exact {
    counted := (ordered.counted.finish known).carry rfl rfl le_rfl
    sorted := ordered.sorted.sublist kept
    pending := fun other member => by
      have different : other ≠ job := fun equal => gone (equal ▸ member)
      have before := ordered.pending other (kept.subset member)
      exact ⟨submitted ▸ before.1, (unfinished other different).trans before.2⟩
    active := fun other taken => by
      obtain ⟨before, different⟩ := active_eq other taken
      obtain ⟨small, open_, least⟩ := ordered.active other before
      exact ⟨submitted ▸ small, (unfinished other different).trans open_,
        fun later member => least later (kept.subset member)⟩
    engaged := (congrArg (tasks.filterMap Task.job ++ ·) running).trans engaged
    unfinished := fun other small open_ => by
      have different : other ≠ job := by
        rintro rfl
        have closed : (queue.finish other).finished other = true := by simp [finish_unfinished left]
        exact Bool.false_ne_true (open_.symm.trans closed)
      have before := ordered.unfinished other (submitted ▸ small)
        ((unfinished other different).symm.trans open_)
      refine before.imp (fun member => others other member different) fun taken => ?_
      rcases busy with ⟨equal, -⟩ | ⟨-, was⟩
      · exact equal.trans taken
      · exact absurd (Option.some.inj (taken.symm.trans was)) different
    starts_sorted := starts ▸ ordered.starts_sorted
    starts := fun other started => by
      obtain ⟨small, before, least⟩ := ordered.starts other (starts ▸ started)
      exact ⟨submitted ▸ small, fun later member => before later (kept.subset member),
        fun taken was => least taken (active_eq taken was).1⟩
    unstarted := fun other member => starts ▸ ordered.unstarted other (fewer.subset member)
    early := fun other member => by
      obtain ⟨was, unstarted⟩ := ordered.early other (early ▸ member)
      exact ⟨(congrFun aborted other).trans was, starts ▸ unstarted⟩ }

theorem Ordered.refused (ordered : queue.Ordered) :
    (queue.counting.finish queue.submitted).Ordered := by
  have fresh : queue.finished queue.submitted = false := by
    by_contra done
    exact lt_irrefl _ (ordered.counted.lt queue.submitted (by simpa using done))
  have others : ∀ other < queue.submitted,
      Function.update queue.finished queue.submitted true other = queue.finished other :=
    fun other small => Function.update_of_ne small.ne _ _
  have counted : queue.counting.Counted := ordered.counted.carry rfl rfl (Nat.le_succ _)
  have finished := counted.finish (Nat.lt_succ_self queue.submitted)
  rw [@finish_unfinished queue.counting _ fresh] at finished ⊢
  refine ⟨finished, ?_, ?_, ?_, ?_, ?_, ?_, ?_, ?_, ?_⟩
  · exact ordered.sorted
  · intro job member
    obtain ⟨small, open_⟩ := ordered.pending job member
    exact ⟨Nat.lt_succ_of_lt small, (others job small).trans open_⟩
  · intro job taken
    obtain ⟨small, open_, least⟩ := ordered.active job taken
    exact ⟨Nat.lt_succ_of_lt small, (others job small).trans open_, least⟩
  · exact ordered.engaged
  · intro job small open_
    rcases Nat.lt_succ_iff_lt_or_eq.mp small with small | rfl
    · exact ordered.unfinished job small ((others job small).symm.trans open_)
    · simp at open_
  · exact ordered.starts_sorted
  · intro job started
    obtain ⟨small, rest⟩ := ordered.starts job started
    exact ⟨Nat.lt_succ_of_lt small, rest⟩
  · exact ordered.unstarted
  · exact ordered.early

theorem Ordered.run (ordered : queue.Ordered) (options : ControlOptions) :
    (queue.run options).Ordered := by
  rw [SerialQueue.run]
  split_ifs
  · exact ordered.refused
  have fresh : queue.finished queue.submitted = false := by
    by_contra done
    exact lt_irrefl _ (ordered.counted.lt queue.submitted (by simpa using done))
  refine ⟨ordered.counted.carry rfl rfl (Nat.le_succ _), ?_, ?_, ?_, ?_, ?_,
    ordered.starts_sorted, ?_, ?_, ordered.early⟩
  · refine List.pairwise_append.mpr ⟨ordered.sorted, List.pairwise_singleton _ _, ?_⟩
    intro job member last single
    rw [List.mem_singleton.mp single]
    exact (ordered.pending job member).1
  · intro job member
    rcases List.mem_append.mp member with member | single
    · obtain ⟨small, open_⟩ := ordered.pending job member
      exact ⟨Nat.lt_succ_of_lt small, open_⟩
    · obtain rfl := List.mem_singleton.mp single
      exact ⟨Nat.lt_succ_self _, fresh⟩
  · intro job taken
    obtain ⟨small, open_, least⟩ := ordered.active job taken
    refine ⟨Nat.lt_succ_of_lt small, open_, fun later member => ?_⟩
    rcases List.mem_append.mp member with member | single
    · exact least later member
    · rwa [List.mem_singleton.mp single]
  · have engaged := ordered.engaged
    simp only [SerialQueue.engaged, List.filterMap_append] at engaged ⊢
    rw [List.append_assoc]
    exact engaged
  · intro job small open_
    rcases Nat.lt_succ_iff_lt_or_eq.mp small with small | rfl
    · exact (ordered.unfinished job small open_).imp_left (List.mem_append_left _)
    · exact .inl (by simp)
  · intro job started
    obtain ⟨small, before, least⟩ := ordered.starts job started
    refine ⟨Nat.lt_succ_of_lt small, fun later member => ?_, least⟩
    rcases List.mem_append.mp member with member | single
    · exact before later member
    · rwa [List.mem_singleton.mp single]
  · intro job member
    exact ordered.unstarted job (by simpa using member)

theorem Roused.run (roused : queue.Roused) (options : ControlOptions) :
    (queue.run options).Roused := by
  rw [SerialQueue.run]
  split_ifs
  · rw [SerialQueue.finish]
    split_ifs <;> exact roused
  · intro _ _
    simp

/-- An abort that only marks the job. -/
theorem Ordered.mark (ordered : queue.Ordered) (job : ℕ) :
    (queue.mark job).Ordered := by
  refine { ordered with counted := ordered.counted.carry rfl rfl le_rfl, early := ?_ }
  have kept : ∀ other ∈ queue.early, Function.update queue.aborted job true other = true ∧
      other ∉ queue.starts := by
    intro other member
    obtain ⟨aborted, unstarted⟩ := ordered.early other member
    refine ⟨?_, unstarted⟩
    rcases eq_or_ne other job with rfl | different
    · exact Function.update_self ..
    · rwa [Function.update_of_ne different]
  intro other member
  simp only [SerialQueue.mark] at member
  split_ifs at member with started
  · exact kept other member
  · rcases List.mem_append.mp member with member | single
    · exact kept other member
    · obtain rfl := List.mem_singleton.mp single
      exact ⟨Function.update_self .., started⟩

theorem Ordered.abort (ordered : queue.Ordered) {job : ℕ} (known : job < queue.submitted) :
    (queue.abort job).Ordered := by
  rw [SerialQueue.abort]
  split_ifs with already waiting
  · exact ordered
  · have idle : queue.active ≠ some job := by
      intro taken
      exact lt_irrefl job ((ordered.active job taken).2.2 job waiting.2)
    have once : queue.pending.Nodup := ordered.sorted.imp LT.lt.ne
    have dropped := (ordered.mark job).finishes known waiting.1 List.erase_sublist
      (fun other member different => (List.mem_erase_of_ne different).mpr member)
      (fun member => (once.mem_erase_iff.mp member).1 rfl) (.inl ⟨rfl, idle⟩)
      (List.Sublist.refl _) ordered.engaged
    refine Ordered.notifyIdle ?_
    rw [finish_withPending]
    rw [@finish_unfinished (queue.mark job) job waiting.1] at dropped ⊢
    exact dropped
  · exact ordered.mark job

theorem Withdrawn.carry (withdrawn : queue.Withdrawn) (aborted : after.aborted = queue.aborted)
    (pending : after.pending ⊆ queue.pending) (submitted : queue.submitted ≤ after.submitted) :
    after.Withdrawn := by
  intro job gone
  rw [aborted] at gone
  obtain ⟨known, left⟩ := withdrawn job gone
  exact ⟨known.trans_le submitted, fun member => left (pending member)⟩

theorem Withdrawn.finish (withdrawn : queue.Withdrawn) (job : ℕ) :
    (queue.finish job).Withdrawn := by
  rw [SerialQueue.finish]
  split_ifs <;> exact withdrawn

theorem Withdrawn.notifyIdle (withdrawn : queue.Withdrawn) : queue.notifyIdle.Withdrawn := by
  rw [SerialQueue.notifyIdle]
  split_ifs <;> exact withdrawn

theorem Withdrawn.dispatch (withdrawn : queue.Withdrawn) : queue.dispatch.Withdrawn := by
  rw [SerialQueue.dispatch]
  split_ifs
  · exact withdrawn
  · split
    · exact withdrawn.notifyIdle
    · rename_i job rest waiting
      exact withdrawn.carry rfl (waiting ▸ List.subset_cons_self job rest) le_rfl

theorem Withdrawn.run (withdrawn : queue.Withdrawn) (options : ControlOptions) :
    (queue.run options).Withdrawn := by
  rw [SerialQueue.run]
  split_ifs
  · have counting : queue.counting.Withdrawn :=
      withdrawn.carry rfl (List.Subset.refl _) (Nat.le_succ _)
    exact counting.finish queue.submitted
  · intro job gone
    obtain ⟨known, left⟩ := withdrawn job gone
    refine ⟨Nat.lt_succ_of_lt known, fun member => ?_⟩
    rcases List.mem_append.mp member with member | single
    · exact left member
    · exact known.ne (List.mem_singleton.mp single)

/-- An aborted job is taken out of the queue when it waits there. -/
theorem Withdrawn.abort (withdrawn : queue.Withdrawn) (ordered : queue.Ordered) {job : ℕ}
    (known : job < queue.submitted) : (queue.abort job).Withdrawn := by
  have others {other : ℕ} (gone : (queue.mark job).aborted other = true)
      (different : other ≠ job) : other < queue.submitted ∧ other ∉ queue.pending :=
    withdrawn other ((Function.update_of_ne different ..).symm.trans gone)
  rw [SerialQueue.abort]
  split_ifs with already waiting
  · exact withdrawn
  · refine Withdrawn.notifyIdle (Withdrawn.finish (fun other gone => ?_) job)
    have once : queue.pending.Nodup := ordered.sorted.imp LT.lt.ne
    rcases eq_or_ne other job with rfl | different
    · exact ⟨known, fun member => (once.mem_erase_iff.mp member).1 rfl⟩
    · obtain ⟨small, left⟩ := others gone different
      exact ⟨small, fun member => left (List.mem_of_mem_erase member)⟩
  · intro other gone
    rcases eq_or_ne other job with rfl | different
    · exact ⟨known, fun member => waiting ⟨(ordered.pending other member).2, member⟩⟩
    · exact others gone different

theorem notifyIdle_kept (queue : SerialQueue) : queue.notifyIdle.pending = queue.pending ∧
    queue.notifyIdle.active = queue.active ∧ queue.notifyIdle.tasks = queue.tasks ∧
    queue.notifyIdle.submitted = queue.submitted := by
  rw [SerialQueue.notifyIdle]
  split_ifs <;> exact ⟨rfl, rfl, rfl, rfl⟩

theorem finish_kept (queue : SerialQueue) (job : ℕ) :
    (queue.finish job).pending = queue.pending ∧ (queue.finish job).active = queue.active ∧
      (queue.finish job).tasks = queue.tasks ∧ (queue.finish job).submitted = queue.submitted := by
  rw [SerialQueue.finish]
  split_ifs <;> exact ⟨rfl, rfl, rfl, rfl⟩

/-- An abort takes jobs out of the queue only. -/
theorem abort_kept (queue : SerialQueue) (job : ℕ) :
    (queue.abort job).pending.Sublist queue.pending ∧ (queue.abort job).active = queue.active ∧
      (queue.abort job).tasks = queue.tasks ∧ (queue.abort job).submitted = queue.submitted := by
  rw [SerialQueue.abort]
  split_ifs
  · exact ⟨List.Sublist.refl _, rfl, rfl, rfl⟩
  · obtain ⟨pending, active, tasks, submitted⟩ :=
      notifyIdle_kept (((queue.mark job).withPending (queue.pending.erase job)).finish job)
    obtain ⟨waiting, busy, todo, counted⟩ :=
      finish_kept ((queue.mark job).withPending (queue.pending.erase job)) job
    rw [pending, active, tasks, submitted, waiting, busy, todo, counted]
    exact ⟨List.erase_sublist, rfl, rfl, rfl⟩
  · exact ⟨List.Sublist.refl _, rfl, rfl, rfl⟩

/-- The parts of the invariant that aborts keep. -/
structure Aborts (before after : SerialQueue) : Prop where
  ordered : before.Ordered → after.Ordered
  withdrawn : before.Ordered → before.Withdrawn → after.Withdrawn
  pending : after.pending.Sublist before.pending
  active : after.active = before.active
  tasks : after.tasks = before.tasks
  submitted : after.submitted = before.submitted

theorem Aborts.roused {before : SerialQueue} (aborts : Aborts before after)
    (roused : before.Roused) : after.Roused := by
  intro waiting free
  rw [aborts.tasks]
  refine roused (fun none_pending => waiting ?_) (aborts.active ▸ free)
  exact List.sublist_nil.mp (none_pending ▸ aborts.pending)

theorem Aborts.trans {before middle : SerialQueue} (first : Aborts before middle)
    (second : Aborts middle after) : Aborts before after where
  ordered := second.ordered ∘ first.ordered
  withdrawn := fun ordered withdrawn =>
    second.withdrawn (first.ordered ordered) (first.withdrawn ordered withdrawn)
  pending := second.pending.trans first.pending
  active := second.active.trans first.active
  tasks := second.tasks.trans first.tasks
  submitted := second.submitted.trans first.submitted

theorem abort_aborts {job : ℕ} (known : job < queue.submitted) :
    Aborts queue (queue.abort job) := by
  obtain ⟨pending, active, tasks, submitted⟩ := abort_kept queue job
  exact ⟨fun ordered => ordered.abort known,
    fun ordered withdrawn => withdrawn.abort ordered known, pending, active, tasks, submitted⟩

theorem foldl_aborts (jobs : List ℕ) (known : ∀ job ∈ jobs, job < queue.submitted) :
    Aborts queue (jobs.foldl SerialQueue.abort queue) := by
  induction jobs generalizing queue with
  | nil => exact ⟨id, fun _ => id, List.Sublist.refl _, rfl, rfl, rfl⟩
  | cons job jobs induction =>
      have first := abort_aborts (known job (by simp))
      refine first.trans (induction fun other member => ?_)
      rw [first.submitted]
      exact known other (by simp [member])

theorem abortActive_aborts (known : ∀ job, queue.active = some job → job < queue.submitted) :
    Aborts queue queue.abortActive := by
  cases busy : queue.active with
  | none =>
      rw [abortActive, busy]
      exact ⟨id, fun _ => id, List.Sublist.refl _, rfl, rfl, rfl⟩
  | some job =>
      rw [abortActive, busy]
      exact abort_aborts (known job busy)

theorem stop_aborts (ordered : queue.Ordered) : Aborts queue queue.stop := by
  have closing : Aborts queue { queue with closed := true } :=
    ⟨fun ordered => { ordered with counted := ordered.counted.carry rfl rfl le_rfl },
      fun _ => id, List.Sublist.refl _, rfl, rfl, rfl⟩
  have folded := @foldl_aborts { queue with closed := true } queue.pending
    (fun job member => (ordered.pending job member).1)
  have stopped := closing.trans folded
  refine stopped.trans (abortActive_aborts fun job busy => ?_)
  rw [stopped.submitted]
  exact (ordered.active job (stopped.active ▸ busy)).1

/-- The active job is the one of its microtask, which is the only one. -/
theorem Ordered.task (ordered : queue.Ordered) {task : Task} {job : ℕ} (of : task.job = some job)
    {front behind : List Task} (tasks : queue.tasks = front ++ task :: behind) :
    queue.active = some job ∧ (front ++ behind).filterMap Task.job ++ queue.running = [] := by
  have engaged := ordered.engaged
  rw [SerialQueue.engaged, tasks, List.filterMap_append, List.filterMap_cons, of] at engaged
  cases busy : queue.active with
  | none => simp [busy] at engaged
  | some other =>
      rw [busy] at engaged
      simp only [Option.toList_some, List.append_assoc, List.cons_append,
        List.append_eq_singleton_iff, List.cons.injEq] at engaged
      simp_all

/-- A microtask without a job is taken. -/
theorem Ordered.taken (ordered : queue.Ordered) {front behind : List Task}
    (tasks : queue.tasks = front ++ .dispatch :: behind) :
    (queue.withTasks (front ++ behind)).Ordered := by
  refine { ordered with
    counted := ordered.counted.carry rfl rfl le_rfl
    engaged := ?_
    unstarted := fun job member => ordered.unstarted job ?_ }
  · have engaged := ordered.engaged
    rw [SerialQueue.engaged, tasks, List.filterMap_append] at engaged
    rw [SerialQueue.engaged, withTasks, List.filterMap_append]
    exact engaged
  · rw [tasks]
    rcases List.mem_append.mp member with member | member
    · exact List.mem_append_left _ member
    · exact List.mem_append_right _ (List.mem_cons_of_mem _ member)

theorem Ordered.start (ordered : queue.Ordered) {job : ℕ} {front behind : List Task}
    (tasks : queue.tasks = front ++ .start job :: behind) :
    ((queue.withTasks (front ++ behind)).start job).Ordered := by
  obtain ⟨busy, alone⟩ := ordered.task rfl tasks
  obtain ⟨none_left, none_running⟩ := List.append_eq_nil_iff.mp alone
  have fewer : ∀ task ∈ front ++ behind, task ∈ queue.tasks := by
    intro task member
    rw [tasks]
    rcases List.mem_append.mp member with member | member
    · exact List.mem_append_left _ member
    · exact List.mem_append_right _ (List.mem_cons_of_mem _ member)
  rw [SerialQueue.start]
  split_ifs with aborted
  · refine { ordered with
      counted := ordered.counted.carry rfl rfl le_rfl
      engaged := ?_
      unstarted := fun other member => ordered.unstarted other ?_ }
    · simp only [SerialQueue.engaged, withTasks, @List.filterMap_append _ _ _ [_], none_left,
        none_running, busy]
      rfl
    · rcases List.mem_append.mp member with member | single
      · exact fewer _ member
      · cases List.mem_singleton.mp single
  · have fresh : job ∉ queue.starts := ordered.unstarted job (by simp [tasks])
    obtain ⟨known, -, least⟩ := ordered.active job busy
    refine { ordered with
      counted := ordered.counted.carry rfl rfl le_rfl
      engaged := ?_
      starts_sorted := ?_
      starts := fun other started => ?_
      unstarted := fun other member => ?_
      early := fun other member => ?_ }
    · simp only [SerialQueue.engaged, withTasks, none_left, none_running, busy]
      rfl
    · refine List.pairwise_append.mpr ⟨ordered.starts_sorted, List.pairwise_singleton _ _, ?_⟩
      intro other started last single
      rw [List.mem_singleton.mp single]
      refine lt_of_le_of_ne ((ordered.starts other started).2.2 job busy) ?_
      rintro rfl
      exact fresh started
    · rcases List.mem_append.mp started with started | single
      · exact ordered.starts other started
      · obtain rfl := List.mem_singleton.mp single
        refine ⟨known, least, fun taken active => ?_⟩
        exact (Option.some.inj (busy.symm.trans active)).le
    · have listed : other ∈ (front ++ behind).filterMap Task.job :=
        List.mem_filterMap.mpr ⟨_, member, rfl⟩
      rw [none_left] at listed
      cases listed
    · obtain ⟨was, unstarted⟩ := ordered.early other member
      refine ⟨was, fun started => ?_⟩
      rcases List.mem_append.mp started with started | single
      · exact unstarted started
      · obtain rfl := List.mem_singleton.mp single
        exact aborted was

theorem Ordered.settle (ordered : queue.Ordered) {job : ℕ} {front behind : List ℕ}
    (running : queue.running = front ++ job :: behind) :
    ({ queue with running := front ++ behind, tasks := queue.tasks ++ [.complete job] } :
      SerialQueue).Ordered := by
  have engaged := ordered.engaged
  refine { ordered with
    counted := ordered.counted.carry rfl rfl le_rfl
    engaged := ?_
    unstarted := fun other member => ordered.unstarted other (by simpa using member) }
  rw [SerialQueue.engaged, running] at engaged
  cases busy : queue.active with
  | none => simp [busy] at engaged
  | some other =>
      rw [busy, Option.toList_some] at engaged
      have short := congrArg List.length engaged
      simp only [List.length_append, List.length_cons, List.length_nil] at short
      have jobs := List.eq_nil_of_length_eq_zero
        (show (queue.tasks.filterMap Task.job).length = 0 by omega)
      obtain rfl := List.eq_nil_of_length_eq_zero (show front.length = 0 by omega)
      obtain rfl := List.eq_nil_of_length_eq_zero (show behind.length = 0 by omega)
      rw [jobs] at engaged
      rw [SerialQueue.engaged, List.filterMap_append, jobs]
      exact engaged

theorem Ordered.complete (ordered : queue.Ordered) {job : ℕ} {front behind : List Task}
    (tasks : queue.tasks = front ++ .complete job :: behind) :
    ((queue.withTasks (front ++ behind)).complete job).Ordered ∧
      ((queue.withTasks (front ++ behind)).complete job).Roused := by
  obtain ⟨busy, alone⟩ := ordered.task rfl tasks
  obtain ⟨known, left, least⟩ := ordered.active job busy
  have fewer : (front ++ behind).Sublist queue.tasks := by
    rw [tasks]
    exact List.Sublist.append_left (List.sublist_cons_self _ _) front
  have finished := ordered.finishes known left (List.Sublist.refl _)
    (fun other member _ => member) (fun member => lt_irrefl job (least job member))
    (.inr ⟨rfl, busy⟩) fewer alone
  refine Ordered.dispatch ?_
  rw [@finish_unfinished queue job left] at finished
  rw [@finish_unfinished (queue.withTasks (front ++ behind)) job left]
  exact finished

/-- The invariant of a queue. -/
structure Sound (queue : SerialQueue) : Prop where
  ordered : queue.Ordered
  roused : queue.Roused
  withdrawn : queue.Withdrawn

theorem Step.sound (step : Step queue after) (sound : queue.Sound) : after.Sound := by
  cases step with
  | abort known =>
      have aborts := abort_aborts known
      exact ⟨aborts.ordered sound.ordered, aborts.roused sound.roused,
        aborts.withdrawn sound.ordered sound.withdrawn⟩
  | stop =>
      have aborts := stop_aborts sound.ordered
      exact ⟨aborts.ordered sound.ordered, aborts.roused sound.roused,
        aborts.withdrawn sound.ordered sound.withdrawn⟩
  | idle waiter busy =>
      exact ⟨{ sound.ordered with counted := sound.ordered.counted.carry rfl rfl le_rfl },
        sound.roused, sound.withdrawn⟩
  | @dispatch front behind tasks =>
      obtain ⟨ordered, roused⟩ := (sound.ordered.taken tasks).dispatch
      have withdrawn : (queue.withTasks (front ++ behind)).Withdrawn := sound.withdrawn
      exact ⟨ordered, roused, withdrawn.dispatch⟩
  | start tasks =>
      refine ⟨sound.ordered.start tasks, ?_, ?_⟩
      · obtain ⟨busy, -⟩ := sound.ordered.task rfl tasks
        intro waiting free
        rw [SerialQueue.start] at free
        split_ifs at free <;> exact absurd (busy.symm.trans free) (by simp)
      · rw [SerialQueue.start]
        split_ifs <;> exact sound.withdrawn
  | settle running =>
      refine ⟨sound.ordered.settle running, fun waiting free => ?_, sound.withdrawn⟩
      exact List.mem_append_left _ (sound.roused waiting free)
  | @complete job front behind tasks =>
      obtain ⟨ordered, roused⟩ := sound.ordered.complete tasks
      have withdrawn : (queue.withTasks (front ++ behind)).Withdrawn := sound.withdrawn
      have freed : (((queue.withTasks (front ++ behind)).finish job).withActive none).Withdrawn :=
        withdrawn.finish job
      exact ⟨ordered, roused, freed.dispatch⟩

theorem Reachable.sound (reachable : Reachable queue) : queue.Sound := by
  induction reachable with
  | init => exact ⟨init_ordered, fun waiting => absurd rfl waiting, fun _ gone => by cases gone⟩
  | run options reachable induction =>
      exact ⟨induction.ordered.run options, induction.roused.run options,
        induction.withdrawn.run options⟩
  | step reachable step induction => exact step.sound induction

/-- A waiter leaves only when no job is left. -/
def Notifies (before after : SerialQueue) : Prop :=
  (∀ waiter ∈ before.waiters, waiter ∈ after.waiters) ∨ after.size = 0

theorem finish_waiters (queue : SerialQueue) (job : ℕ) :
    (queue.finish job).waiters = queue.waiters := by
  rw [SerialQueue.finish]
  split_ifs <;> rfl

theorem notifyIdle_notifies (queue : SerialQueue) : Notifies queue queue.notifyIdle := by
  rw [SerialQueue.notifyIdle]
  split_ifs with empty
  · exact .inr empty
  · exact .inl fun _ member => member

theorem dispatch_notifies (queue : SerialQueue) : Notifies queue queue.dispatch := by
  rw [SerialQueue.dispatch]
  split_ifs
  · exact .inl fun _ member => member
  · cases queue.pending with
    | nil => exact notifyIdle_notifies queue
    | cons job rest => exact .inl fun _ member => member

theorem abort_notifies (queue : SerialQueue) (job : ℕ) : Notifies queue (queue.abort job) := by
  rw [SerialQueue.abort]
  split_ifs
  · exact .inl fun _ member => member
  · refine (notifyIdle_notifies _).imp_left fun kept => ?_
    rw [finish_waiters] at kept
    exact kept
  · exact .inl fun _ member => member

theorem abort_size (queue : SerialQueue) (job : ℕ) : (queue.abort job).size ≤ queue.size := by
  obtain ⟨pending, active, -⟩ := abort_kept queue job
  rw [size, size, active]
  exact Nat.add_le_add_right pending.length_le _

theorem Notifies.abort {before : SerialQueue} (notifies : Notifies before queue) (job : ℕ) :
    Notifies before (queue.abort job) := by
  rcases notifies with kept | empty
  · exact (abort_notifies queue job).imp_left fun next waiter member =>
      next waiter (kept waiter member)
  · have less := abort_size queue job
    exact .inr (by omega)

theorem Notifies.foldl {before : SerialQueue} (notifies : Notifies before queue) (jobs : List ℕ) :
    Notifies before (jobs.foldl SerialQueue.abort queue) := by
  induction jobs generalizing queue with
  | nil => exact notifies
  | cons job jobs induction => exact induction (notifies.abort job)

theorem Step.notifies (step : Step queue after) : Notifies queue after := by
  cases step with
  | abort known => exact abort_notifies queue _
  | stop =>
      have folded := @Notifies.foldl { queue with closed := true } queue
        (.inl fun _ member => member) queue.pending
      rw [SerialQueue.stop, abortActive]
      split
      · exact folded
      · exact folded.abort _
  | idle waiter busy => exact .inl fun _ member => List.mem_append_left _ member
  | @dispatch front behind tasks => exact dispatch_notifies (queue.withTasks (front ++ behind))
  | start tasks =>
      refine .inl ?_
      rw [SerialQueue.start]
      split_ifs <;> exact fun _ member => member
  | settle running => exact .inl fun _ member => member
  | @complete job front behind tasks =>
      have kept := finish_waiters (queue.withTasks (front ++ behind)) job
      refine (dispatch_notifies _).imp_left fun next waiter member => next waiter ?_
      exact kept ▸ member

/-- At most one action runs at a time. -/
theorem Sound.running (sound : queue.Sound) : queue.running.length ≤ 1 ∧
    ∀ job ∈ queue.running, queue.active = some job := by
  have engaged := sound.ordered.engaged
  have short : queue.engaged.length ≤ 1 := by
    rw [engaged]
    cases queue.active <;> simp
  refine ⟨?_, fun job member => ?_⟩
  · rw [SerialQueue.engaged, List.length_append] at short
    omega
  · have listed : job ∈ queue.active.toList :=
      engaged ▸ List.mem_append_right _ member
    exact Option.mem_toList.mp listed

/-- A queue without a microtask and a running action has finished all its jobs. -/
theorem Sound.settled (sound : queue.Sound) (tasks : queue.tasks = [])
    (running : queue.running = []) {job : ℕ} (known : job < queue.submitted) :
    job ∈ queue.finishes := by
  have free : queue.active = none := by
    have engaged := sound.ordered.engaged
    rw [SerialQueue.engaged, tasks, running] at engaged
    exact Option.toList_eq_nil_iff.mp engaged.symm
  have empty : queue.pending = [] := by
    by_contra waiting
    have roused := sound.roused waiting free
    rw [tasks] at roused
    cases roused
  rw [sound.ordered.counted.mem]
  by_contra left
  rcases sound.ordered.unfinished job known (by simpa using left) with member | busy
  · rw [empty] at member
    cases member
  · rw [free] at busy
    cases busy

end SerialQueue
end Postgamma.Wasm
