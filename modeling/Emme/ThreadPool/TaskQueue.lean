import Emme.Lib.Execution
import Emme.Lib.RingBuffer

/-!
# The task queue of the thread pool

Model of `TaskQueue` in `src/thread_pool.c`. Every call that may allocate takes the result of its
`malloc`: `none` for `NULL`, `some cells` for a block whose cells hold `cells`. As long as no push
doubles the ring while `front` is 0 the queue is a FIFO list (`task_queue_acts_as_fifo`). The
restriction is needed: queued tasks are copied only when `front > 0`
(`grow_at_front_zero_pops_newest`).
-/

namespace Emme.ThreadPool

open Execution RingBuffer

/-- `TaskQueue`. Cells of `tasks` at `capacity` and beyond do not exist in the source. -/
structure TaskQueue (Task : Type) where
  tasks : Nat → Task
  capacity : Nat
  count : Nat
  front : Nat
  rear : Nat

/-- `TASK_QUEUE_INITIAL_CAPACITY`. -/
def taskQueueInitialCapacity : Nat := 256

variable {Task : Type}

/-- `task_queue_init`: `none` is the answer `false`, after which the pool is not created. -/
def taskQueueInit (memory : Option (Nat → Task)) : Option (TaskQueue Task) :=
  memory.map fun tasks =>
    { tasks, capacity := taskQueueInitialCapacity, count := 0, front := 0, rear := 0 }

/-- The first `i` rounds of the copying loop of `task_queue_push`. -/
def copyTasks (queue : TaskQueue Task) (newTasks : Nat → Task) : Nat → Nat → Task
  | 0 => newTasks
  | i + 1 =>
      Function.update (copyTasks queue newTasks i) i
        (queue.tasks ((queue.front + i) % queue.capacity))

/-- The part of `task_queue_push` that moves the ring to a block of twice the capacity. -/
def taskQueueGrow (queue : TaskQueue Task) (newTasks : Nat → Task) : TaskQueue Task :=
  if queue.front > 0 then
    { queue with
      tasks := copyTasks queue newTasks queue.count
      front := 0
      rear := queue.count
      capacity := queue.capacity * 2 }
  else
    -- the queued tasks stay behind in the block that is freed
    { queue with tasks := newTasks, capacity := queue.capacity * 2 }

/-- The part of `task_queue_push` that stores the task at `rear`. -/
def taskQueueStore (queue : TaskQueue Task) (task : Task) : TaskQueue Task :=
  { queue with
    tasks := Function.update queue.tasks queue.rear task
    rear := (queue.rear + 1) % queue.capacity
    count := queue.count + 1 }

/-- `task_queue_push`. -/
def taskQueuePush (queue : TaskQueue Task) (task : Task) (memory : Option (Nat → Task)) :
    Bool × TaskQueue Task :=
  if queue.count = queue.capacity then
    match memory with
    | none => (false, queue)
    | some newTasks => (true, taskQueueStore (taskQueueGrow queue newTasks) task)
  else
    (true, taskQueueStore queue task)

/-- `task_queue_pop`: the task written through the pointer when the answer is `true`. -/
def taskQueuePop (queue : TaskQueue Task) : Option Task × TaskQueue Task :=
  if queue.count = 0 then
    (none, queue)
  else
    (some (queue.tasks queue.front),
      { queue with front := (queue.front + 1) % queue.capacity, count := queue.count - 1 })

/-- A call on the queue, with the result of the `malloc` a push makes if it makes one. -/
inductive QueueCall (Task : Type) where
  | push (task : Task) (memory : Option (Nat → Task))
  | pop

/-- One call, with what its caller sees. -/
def TaskQueue.step (queue : TaskQueue Task) : QueueCall Task → Fifo.Event Task × TaskQueue Task
  | .push task memory =>
      (.pushed task (taskQueuePush queue task memory).1, (taskQueuePush queue task memory).2)
  | .pop => (.popped (taskQueuePop queue).1, (taskQueuePop queue).2)

/-- The queued tasks, oldest first. -/
def TaskQueue.contents (queue : TaskQueue Task) : List Task :=
  window queue.tasks queue.capacity queue.front queue.count

/-- The relation between the four counters of the ring. -/
structure TaskQueue.Valid (queue : TaskQueue Task) : Prop where
  count_le : queue.count ≤ queue.capacity
  front_lt : queue.front < queue.capacity
  rear_eq : queue.rear = (queue.front + queue.count) % queue.capacity

/-- The call does not double the ring while `front` is 0. -/
def TaskQueue.GrowsOffStart (queue : TaskQueue Task) : QueueCall Task → Prop
  | .push _ (some _) => queue.count = queue.capacity → 0 < queue.front
  | .push _ none => True
  | .pop => True

instance (queue : TaskQueue Task) : ∀ call, Decidable (queue.GrowsOffStart call)
  | .push _ (some _) => inferInstanceAs (Decidable (_ → _))
  | .push _ none => isTrue trivial
  | .pop => isTrue trivial

/-! ## One call -/

variable {memory : Option (Nat → Task)} {queue : TaskQueue Task}

/-- A new queue is empty. -/
theorem task_queue_init_valid (h : taskQueueInit memory = some queue) :
    queue.Valid ∧ queue.contents = [] := by
  obtain ⟨tasks, _, rfl⟩ := Option.map_eq_some_iff.mp h
  exact ⟨⟨Nat.zero_le _, Nat.zero_lt_succ _, rfl⟩, rfl⟩

/-- After `n` rounds the first `n` cells hold the `n` oldest tasks. -/
theorem copy_tasks_apply (queue : TaskQueue Task) (newTasks : Nat → Task) {n i : Nat}
    (hi : i < n) :
    copyTasks queue newTasks n i = queue.tasks ((queue.front + i) % queue.capacity) := by
  induction n with
  | zero => exact absurd hi (Nat.not_lt_zero i)
  | succ n ih =>
      by_cases heq : i = n
      · subst heq
        simp [copyTasks]
      · rw [copyTasks, Function.update_of_ne heq]
        exact ih (by omega)

/-- Off the start of the array, doubling keeps the queued tasks and leaves room. -/
theorem task_queue_grow_spec (hvalid : queue.Valid) (hfront : 0 < queue.front)
    (newTasks : Nat → Task) :
    (taskQueueGrow queue newTasks).Valid ∧
      (taskQueueGrow queue newTasks).count < (taskQueueGrow queue newTasks).capacity ∧
      (taskQueueGrow queue newTasks).contents = queue.contents := by
  have hcount := hvalid.count_le
  have hlt := hvalid.front_lt
  rw [taskQueueGrow, if_pos hfront]
  refine ⟨⟨?_, ?_, ?_⟩, ?_, ?_⟩
  · show queue.count ≤ queue.capacity * 2
    omega
  · show 0 < queue.capacity * 2
    omega
  · show queue.count = (0 + queue.count) % (queue.capacity * 2)
    rw [Nat.zero_add, Nat.mod_eq_of_lt (by omega)]
  · show queue.count < queue.capacity * 2
    omega
  · apply window_congr
    intro i hi
    have hi : i < queue.count := hi
    show copyTasks queue newTasks queue.count ((0 + i) % (queue.capacity * 2)) = _
    rw [Nat.zero_add, Nat.mod_eq_of_lt (by omega), copy_tasks_apply queue newTasks hi]

/-- Storing a task in a ring with room appends it. -/
theorem task_queue_store_spec (hvalid : queue.Valid) (hroom : queue.count < queue.capacity)
    (task : Task) :
    (taskQueueStore queue task).Valid ∧
      (taskQueueStore queue task).contents = queue.contents ++ [task] := by
  refine ⟨⟨hroom, hvalid.front_lt, ?_⟩, ?_⟩
  · show (queue.rear + 1) % queue.capacity = (queue.front + (queue.count + 1)) % queue.capacity
    rw [hvalid.rear_eq, Nat.mod_add_mod, Nat.add_assoc]
  · show window (Function.update queue.tasks queue.rear task) _ _ _ = _
    rw [hvalid.rear_eq]
    exact window_write_next queue.tasks task hroom

/-- A refused push leaves the queue as it was. -/
theorem task_queue_push_refused {task : Task} (h : (taskQueuePush queue task memory).1 = false) :
    (taskQueuePush queue task memory).2 = queue := by
  unfold taskQueuePush at h ⊢
  split at h
  · cases memory with
    | none => rw [if_pos ‹_›]
    | some newTasks => cases h
  · cases h

/-- A push is a step of the FIFO list unless it doubles the ring at `front = 0`. -/
theorem task_queue_push_spec (hvalid : queue.Valid) (task : Task)
    (hgrow : queue.GrowsOffStart (.push task memory)) :
    (taskQueuePush queue task memory).2.Valid ∧
      Fifo.Step queue.contents (.pushed task (taskQueuePush queue task memory).1)
        (taskQueuePush queue task memory).2.contents := by
  unfold taskQueuePush
  split
  · rename_i hfull
    cases memory with
    | none => exact ⟨hvalid, .refuse _ _⟩
    | some newTasks =>
        obtain ⟨hgrown, hroom, hsame⟩ := task_queue_grow_spec hvalid (hgrow hfull) newTasks
        obtain ⟨hstored, hcontents⟩ := task_queue_store_spec hgrown hroom task
        refine ⟨hstored, ?_⟩
        rw [hcontents, hsame]
        exact .push _ _
  · rename_i hfull
    have hroom : queue.count < queue.capacity := lt_of_le_of_ne hvalid.count_le hfull
    obtain ⟨hstored, hcontents⟩ := task_queue_store_spec hvalid hroom task
    refine ⟨hstored, ?_⟩
    rw [hcontents]
    exact .push _ _

/-- A pop is a step of the FIFO list. -/
theorem task_queue_pop_spec (hvalid : queue.Valid) :
    (taskQueuePop queue).2.Valid ∧
      Fifo.Step queue.contents (.popped (taskQueuePop queue).1)
        (taskQueuePop queue).2.contents := by
  unfold taskQueuePop
  split
  · rename_i hempty
    refine ⟨hvalid, ?_⟩
    rw [TaskQueue.contents, hempty, window_zero]
    exact .empty
  · rename_i hne
    obtain ⟨n, hn⟩ : ∃ n, queue.count = n + 1 := ⟨queue.count - 1, by omega⟩
    have hlt := hvalid.front_lt
    have hle := hvalid.count_le
    refine ⟨⟨?_, ?_, ?_⟩, ?_⟩
    · show queue.count - 1 ≤ queue.capacity
      omega
    · exact Nat.mod_lt _ (by omega)
    · show queue.rear = ((queue.front + 1) % queue.capacity + (queue.count - 1)) % queue.capacity
      rw [hvalid.rear_eq, Nat.mod_add_mod]
      congr 1
      omega
    · show Fifo.Step queue.contents _
        (window queue.tasks queue.capacity ((queue.front + 1) % queue.capacity) (queue.count - 1))
      rw [TaskQueue.contents, hn, window_succ, Nat.mod_eq_of_lt hlt]
      exact .pop _ _

/-- Every call that does not double the ring at `front = 0` is a step of the FIFO list. -/
theorem task_queue_step_spec (hvalid : queue.Valid) {call : QueueCall Task}
    (hgrow : queue.GrowsOffStart call) :
    (queue.step call).2.Valid ∧
      Fifo.Step queue.contents (queue.step call).1 (queue.step call).2.contents := by
  cases call with
  | push task memory => exact task_queue_push_spec hvalid task hgrow
  | pop => exact task_queue_pop_spec hvalid

/-- Doubling a full ring with `front = 0` loses its oldest task: the next pop returns the task
that was just pushed, and the cells behind it are those of the new block. -/
theorem grow_at_front_zero_pops_newest (hvalid : queue.Valid)
    (hfull : queue.count = queue.capacity) (hfront : queue.front = 0) (task : Task)
    (newTasks : Nat → Task) :
    (taskQueuePop (taskQueuePush queue task (some newTasks)).2).1 = some task := by
  have hrear : queue.rear = 0 := by
    rw [hvalid.rear_eq, hfull, hfront, Nat.zero_add, Nat.mod_self]
  simp [taskQueuePush, hfull, taskQueueGrow, hfront, taskQueueStore, taskQueuePop, hrear]

/-! ## Runs -/

/-- The answers of a run. -/
def TaskQueue.events (queue : TaskQueue Task) (calls : List (QueueCall Task)) :
    List (Fifo.Event Task) :=
  (trace TaskQueue.step queue calls).map Prod.snd

/-- The run is one of an unbounded FIFO list. At every point the answers given so far are those
of a list that is empty at first, that list is what the ring holds, and a refused push changes
nothing. -/
def TaskQueue.ActsAsFifo (queue : TaskQueue Task) (calls : List (QueueCall Task)) : Prop :=
  ∀ served, served <+: calls →
    Fifo.Steps [] (queue.events served) (after TaskQueue.step queue served).contents ∧
    ∀ task memory, served ++ [.push task memory] <+: calls →
      (taskQueuePush (after TaskQueue.step queue served) task memory).1 = false →
      (taskQueuePush (after TaskQueue.step queue served) task memory).2 =
        after TaskQueue.step queue served

/-- From a valid ring, the answers of a run are those of the list the ring holds. -/
theorem task_queue_steps (hvalid : queue.Valid) {calls : List (QueueCall Task)}
    (hgrow : Along TaskQueue.step TaskQueue.GrowsOffStart queue calls) :
    Fifo.Steps queue.contents (queue.events calls)
      (after TaskQueue.step queue calls).contents := by
  induction calls generalizing queue with
  | nil => exact .refl _
  | cons call calls ih =>
      obtain ⟨hcall, hrest⟩ := hgrow
      obtain ⟨hnext, hstep⟩ := task_queue_step_spec hvalid hcall
      exact .cons hstep (ih hnext hrest)

/-- Every run on a queue fresh from `task_queue_init` in which no push doubles the ring at
`front = 0` is a run of an unbounded FIFO list. -/
theorem task_queue_acts_as_fifo {memory : Option (Nat → Task)} {queue : TaskQueue Task}
    (hinit : taskQueueInit memory = some queue) (calls : List (QueueCall Task))
    (hgrow : Along TaskQueue.step TaskQueue.GrowsOffStart queue calls) :
    queue.ActsAsFifo calls := by
  obtain ⟨hvalid, hempty⟩ := task_queue_init_valid hinit
  rintro served ⟨rest, rfl⟩
  refine ⟨?_, fun task memory _ hrefused => task_queue_push_refused hrefused⟩
  have hserved := task_queue_steps hvalid (along_append.mp hgrow).1
  rwa [hempty] at hserved

/-- One task is served before 257 more arrive, so the ring doubles with `front = 1`. -/
def serveThenGrow : List (QueueCall Nat) :=
  .push 0 (some fun _ => 0) :: .pop ::
    (List.range 257).map fun task => .push task (some fun _ => 0)

/-- Such a queue serves its tasks in order. -/
theorem serve_then_grow_acts_as_fifo :
    ∃ queue, taskQueueInit (some fun _ => 0) = some queue ∧
      Along TaskQueue.step TaskQueue.GrowsOffStart queue serveThenGrow ∧
      queue.ActsAsFifo serveThenGrow := by
  have hinit : taskQueueInit (some fun _ => (0 : Nat)) =
      some ⟨fun _ => 0, taskQueueInitialCapacity, 0, 0, 0⟩ := rfl
  have hgrow : Along TaskQueue.step TaskQueue.GrowsOffStart
      ⟨fun _ => 0, taskQueueInitialCapacity, 0, 0, 0⟩ serveThenGrow := by decide +kernel
  exact ⟨_, hinit, hgrow, task_queue_acts_as_fifo hinit serveThenGrow hgrow⟩

/-- 256 tasks fill the ring, the 257th doubles it with `front` still 0. -/
def fillAndGrow : List (QueueCall Nat) :=
  (List.range 257).map fun task => .push task (some fun _ => 0)

/-- Such a queue does not. -/
theorem fill_and_grow_not_fifo :
    ∃ queue, taskQueueInit (some fun _ => 0) = some queue ∧ ¬ queue.ActsAsFifo fillAndGrow := by
  refine ⟨_, rfl, fun hfifo => ?_⟩
  have hevents : TaskQueue.events ⟨fun _ => 0, taskQueueInitialCapacity, 0, 0, 0⟩ fillAndGrow =
      (List.range 257).map fun task => .pushed task true := by decide +kernel
  have hfirst : (after TaskQueue.step ⟨fun _ => 0, taskQueueInitialCapacity, 0, 0, 0⟩
      fillAndGrow).contents.head? = some 256 := by decide +kernel
  obtain ⟨hsteps, _⟩ := hfifo fillAndGrow (List.prefix_refl _)
  rw [hevents] at hsteps
  rw [hsteps.pushed] at hfirst
  exact absurd hfirst (by decide)

end Emme.ThreadPool
