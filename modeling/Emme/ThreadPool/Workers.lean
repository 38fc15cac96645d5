import Emme.Lib.Slots
import Emme.Lib.Threads
import Emme.ThreadPool.TaskQueue
import Mathlib.Data.List.Induction

/-!
# The workers of the thread pool

Model of `ThreadPool` in `src/thread_pool.c`. Each critical section of `pool->lock` is one step. The
started threads are listed in the order in which `pthread_create` has started them. A worker
occupies an element of `threads` and `worker_args`, its slot, and leaves it on the stack
`free_indices` at its end. `workers_sound` says what holds of the slots throughout every run.
-/

namespace Emme.ThreadPool

open Execution Threads Slots

/-! ## The pool and its critical sections -/

/-- `struct ThreadPool`. A handle in `threads` is the thread it names, or `none` while it has not
been written by a `pthread_create` that succeeded; of a `WorkerArg` only the index matters. -/
structure Pool (Task : Type) where
  queue : TaskQueue Task
  threads : Nat → Option Nat
  workerArgs : Nat → Nat
  numThreads : Nat
  threadsCreated : Nat
  minThreads : Nat
  maxThreads : Nat
  freeIndices : Nat → Nat
  freeCount : Nat
  shutdown : Bool

/-- Where a worker is: before it has read its argument, about to take the lock, in
`pthread_cond_timedwait`, executing a task, at its end. -/
inductive Phase (Task : Type) where
  | starting
  | ready
  | waiting
  | busy (task : Task)
  | exited
  deriving DecidableEq, Repr

/-- The worker has ended. -/
def Phase.isExited {Task : Type} : Phase Task → Bool
  | .exited => true
  | _ => false

/-- A thread that runs `worker_thread`: the slot whose argument it was given, and the index it
has read there. -/
structure Worker (Task : Type) where
  slot : Nat
  index : Nat
  phase : Phase Task
  deriving DecidableEq, Repr

variable {Task : Type}

/-- `mark_thread_exit`. -/
def markThreadExit (pool : Pool Task) (index : Nat) : Pool Task :=
  let pool :=
    if pool.freeCount < pool.maxThreads then
      { pool with
        freeIndices := Function.update pool.freeIndices pool.freeCount index
        freeCount := pool.freeCount + 1 }
    else pool
  if pool.numThreads > 0 then { pool with numThreads := pool.numThreads - 1 } else pool

/-- `worker_thread` with the lock held, from the test of the inner loop to the point where the
lock is given up. -/
def workerLoop (pool : Pool Task) (index : Nat) : Pool Task × Phase Task :=
  if pool.queue.count = 0 ∧ pool.shutdown = false then (pool, .waiting)
  else if pool.shutdown then (markThreadExit pool index, .exited)
  else
    match taskQueuePop pool.queue with
    | (some task, queue) => ({ pool with queue }, .busy task)
    | (none, queue) => ({ pool with queue }, .ready)

/-- `worker_thread` from the return of `pthread_cond_timedwait` on. -/
def workerWake (pool : Pool Task) (index : Nat) (timedOut : Bool) :
    Pool Task × Phase Task :=
  if timedOut ∧ pool.queue.count = 0 ∧ pool.numThreads > pool.minThreads then
    (markThreadExit pool index, .exited)
  else workerLoop pool index

/-- The slot that `thread_pool_add_task` picks for a new worker; `maxThreads` is no slot. -/
def pickSlot (pool : Pool Task) : Nat × Pool Task :=
  if pool.freeCount > 0 then
    (pool.freeIndices (pool.freeCount - 1), { pool with freeCount := pool.freeCount - 1 })
  else if pool.threadsCreated ≥ pool.maxThreads then (pool.maxThreads, pool)
  else (pool.threadsCreated, { pool with threadsCreated := pool.threadsCreated + 1 })

/-- The rest of the growth of the pool: `created` is the outcome of `pthread_create` and `thread`
the thread it then starts; when it fails, the handle is undefined. With the pool comes the slot of
the worker that has been started. -/
def startWorker (pool : Pool Task) (index : Nat) (created : Bool) (thread : Nat) :
    Pool Task × Option Nat :=
  if index < pool.maxThreads then
    let pool := { pool with workerArgs := Function.update pool.workerArgs index index }
    if created then
      ({ pool with
          threads := Function.update pool.threads index (some thread)
          numThreads := pool.numThreads + 1 },
        some index)
    else ({ pool with threads := Function.update pool.threads index none }, none)
  else (pool, none)

/-- The pool is to grow: `queue.count > num_threads && num_threads < max_threads`. -/
def Pool.Grows (pool : Pool Task) : Prop :=
  pool.queue.count > pool.numThreads ∧ pool.numThreads < pool.maxThreads

instance (pool : Pool Task) : Decidable pool.Grows := inferInstanceAs (Decidable (_ ∧ _))

/-- `thread_pool_add_task`, with the result of the `malloc` of the queue. -/
def threadPoolAddTask (pool : Pool Task) (task : Task) (memory : Option (Nat → Task))
    (created : Bool) (thread : Nat) : Bool × Pool Task × Option Nat :=
  if pool.shutdown then (false, pool, none)
  else
    match taskQueuePush pool.queue task memory with
    | (false, queue) => (false, { pool with queue }, none)
    | (true, queue) =>
        let pool := { pool with queue }
        if pool.Grows then
          let (index, pool) := pickSlot pool
          (true, startWorker pool index created thread)
        else (true, pool, none)

/-- The pool with its first workers, the `i`-th in slot `i`. -/
def Pool.initial (queue : TaskQueue Task) (minThreads maxThreads : Nat)
    (garbage : Nat → Nat) : Pool Task where
  queue
  threads := fun i => if i < minThreads then some i else none
  workerArgs := fun i => if i < minThreads then i else garbage i
  numThreads := minThreads
  threadsCreated := minThreads
  minThreads
  maxThreads
  freeIndices := garbage
  freeCount := 0
  shutdown := false

/-- The minimum that `thread_pool_create` works with. -/
def effectiveMin (minThreads maxThreads : Nat) : Nat :=
  let minThreads := if minThreads = 0 then 1 else minThreads
  if minThreads > maxThreads then maxThreads else minThreads

/-- `thread_pool_create`: the outcomes of the allocations, of the queue's first, and of the calls
of `pthread_create`. When a call fails, the workers started so far are shut down and joined. -/
def threadPoolCreate (minThreads maxThreads : Nat) (memory : Option (Nat → Task))
    (arrays : Option (Nat → Nat)) (created : Nat → Bool) : Option (Pool Task) :=
  if maxThreads = 0 then none
  else
    let minThreads := effectiveMin minThreads maxThreads
    match taskQueueInit memory, arrays with
    | some queue, some garbage =>
        if ∀ i < minThreads, created i then some (.initial queue minThreads maxThreads garbage)
        else none
    | _, _ => none

/-! ## Runs of the pool -/

/-- A pool, all threads it has started, and the handles `thread_pool_destroy` has joined. -/
structure PoolRun (Task : Type) where
  pool : Pool Task
  workers : List (Worker Task)
  joined : List (Option Nat)

/-- The steps of a run. `wake` is the return of `pthread_cond_timedwait`, with the lock; `join`
is the return of the next `pthread_join` of `thread_pool_destroy`. -/
inductive PoolLabel (Task : Type) where
  | addTask (task : Task) (memory : Option (Nat → Task)) (created : Bool)
  | readArg (worker : Nat)
  | enter (worker : Nat)
  | wake (worker : Nat) (timedOut : Bool)
  | finish (worker : Nat)
  | shutdown
  | join

/-- The worker after a section of code with the lock. -/
def PoolRun.move (run : PoolRun Task) (w : Nat) (worker : Worker Task)
    (moved : Pool Task × Phase Task) : PoolRun Task :=
  { run with
    pool := moved.1
    workers := run.workers.set w { worker with phase := moved.2 } }

/-- The thread has ended. -/
def PoolRun.Ended (run : PoolRun Task) (thread : Nat) : Prop :=
  ∀ worker ∈ run.workers[thread]?, worker.phase.isExited = true

/-- `pthread_join` may return for the handle: the thread it names has ended. What a call with an
undefined handle does is not determined, so its return is not excluded; what depends on the calls
being defined assumes that no `pthread_create` has failed. -/
def PoolRun.MayReturn (run : PoolRun Task) (handle : Option Nat) : Prop :=
  ∀ thread ∈ handle, run.Ended thread

instance (run : PoolRun Task) (handle : Option Nat) : Decidable (run.MayReturn handle) :=
  inferInstanceAs (Decidable (∀ thread ∈ handle, ∀ worker ∈ run.workers[thread]?, _ = true))

/-- The run after a section of code that may have started a worker in a slot. -/
def PoolRun.started (run : PoolRun Task) (result : Pool Task × Option Nat) : PoolRun Task :=
  { run with
    pool := result.1
    workers := run.workers ++
      result.2.toList.map fun slot => { slot, index := 0, phase := .starting } }

/-- One step of a run. -/
def poolNext (run : PoolRun Task) : PoolLabel Task → Option (PoolRun Task)
  | .addTask task memory created =>
      some (run.started (threadPoolAddTask run.pool task memory created run.workers.length).2)
  | .readArg w =>
      match run.workers[w]? with
      | some ⟨slot, _, .starting⟩ =>
          some { run with
            workers := run.workers.set w
              { slot, index := run.pool.workerArgs slot, phase := .ready } }
      | _ => none
  | .enter w =>
      match run.workers[w]? with
      | some ⟨slot, index, .ready⟩ =>
          some (run.move w ⟨slot, index, .ready⟩ (workerLoop run.pool index))
      | _ => none
  | .wake w timedOut =>
      match run.workers[w]? with
      | some ⟨slot, index, .waiting⟩ =>
          some (run.move w ⟨slot, index, .waiting⟩ (workerWake run.pool index timedOut))
      | _ => none
  | .finish w =>
      match run.workers[w]? with
      | some ⟨slot, index, .busy task⟩ =>
          some (run.move w ⟨slot, index, .busy task⟩ (run.pool, .ready))
      | _ => none
  | .shutdown => some { run with pool := { run.pool with shutdown := true } }
  | .join =>
      let handle := run.pool.threads run.joined.length
      if run.pool.shutdown ∧ run.joined.length < run.pool.threadsCreated ∧
          run.MayReturn handle then
        some { run with joined := run.joined ++ [handle] }
      else none

/-- The run that begins when `thread_pool_create` returns the pool. -/
def PoolRun.start (pool : Pool Task) : PoolRun Task where
  pool
  workers := (List.range pool.numThreads).map fun slot => { slot, index := 0, phase := .starting }
  joined := []

/-! ## Slots -/

/-- The slot a worker occupies until it ends. -/
def Worker.held (worker : Worker Task) : List Nat :=
  if worker.phase.isExited then [] else [worker.slot]

variable {worker : Worker Task} {pool : Pool Task} {maxThreads : Nat}

/-- A worker that has not ended holds its slot. -/
theorem Worker.held_live (hlive : worker.phase.isExited = false) : worker.held = [worker.slot] := by
  simp [Worker.held, hlive]

/-- The slots of the live workers. -/
def PoolRun.liveSlots (run : PoolRun Task) : List Nat :=
  inventory (fun _ => Worker.held) run.workers

/-- `free_indices[0..free_count)`. -/
def Pool.freeSlots (pool : Pool Task) : List Nat :=
  stack pool.freeIndices pool.freeCount

/-- The slots that are in use or on the stack. -/
def PoolRun.occupied (run : PoolRun Task) : List Nat := run.liveSlots ++ run.pool.freeSlots

/-- What holds of the slots and the number of workers. -/
structure PoolRun.Sound (run : PoolRun Task) : Prop where
  /-- No slot is used twice, on the stack twice, or both in use and on the stack. -/
  nodup : run.occupied.Nodup
  bounded : ∀ slot ∈ run.occupied, slot < run.pool.threadsCreated
  created_le : run.pool.threadsCreated ≤ run.pool.maxThreads
  counted : run.pool.numThreads = run.liveSlots.length
  min_pos : 1 ≤ run.pool.minThreads
  min_le : run.pool.shutdown = false → run.pool.minThreads ≤ run.pool.numThreads
  /-- The argument of a slot names the slot. -/
  args : ∀ slot < run.pool.threadsCreated, run.pool.workerArgs slot = slot
  /-- A worker has read the number of its slot. -/
  read : ∀ worker ∈ run.workers, worker.phase ≠ .starting → worker.index = worker.slot

namespace PoolRun.Sound

variable {run : PoolRun Task}

/-- The slots in use and the slots on the stack are different slots below the bound. -/
theorem live_add_free_le (hsound : run.Sound) :
    run.liveSlots.length + run.pool.freeCount ≤ run.pool.maxThreads := by
  have hle := length_le_of_nodup hsound.nodup hsound.bounded
  have hcreated := hsound.created_le
  rw [PoolRun.occupied, List.length_append, Pool.freeSlots, length_stack] at hle
  omega

/-- Where a worker is live, neither guard of `mark_thread_exit` is false. -/
theorem guards (hsound : run.Sound) {w : Nat} {worker : Worker Task}
    (hworker : run.workers[w]? = some worker) (hlive : worker.phase.isExited = false) :
    run.pool.freeCount < run.pool.maxThreads ∧ 0 < run.pool.numThreads := by
  have hmem : worker.slot ∈ run.liveSlots :=
    mem_inventory.mpr ⟨w, worker, hworker, by simp [Worker.held_live hlive]⟩
  have hpos : 0 < run.liveSlots.length := List.length_pos_of_mem hmem
  have hle := hsound.live_add_free_le
  have hcounted := hsound.counted
  omega

end PoolRun.Sound

/-- `mark_thread_exit` when its guards hold. -/
theorem mark_thread_exit_eq (hfree : pool.freeCount < pool.maxThreads)
    (hnum : 0 < pool.numThreads) (index : Nat) :
    markThreadExit pool index =
      { pool with
        freeIndices := Function.update pool.freeIndices pool.freeCount index
        freeCount := pool.freeCount + 1
        numThreads := pool.numThreads - 1 } := by
  simp [markThreadExit, hfree, hnum]

/-- What a section of `worker_thread` can lead to: the end of the worker, on shutdown or because
there are more workers than necessary, or its next phase with at most a task taken. -/
inductive SectionEnd (pool : Pool Task) (index : Nat) : Pool Task × Phase Task → Prop
  | exits (hcause : pool.shutdown = true ∨ pool.minThreads < pool.numThreads) :
      SectionEnd pool index (markThreadExit pool index, .exited)
  | stays (queue : TaskQueue Task) (phase : Phase Task) (hstays : phase.isExited = false) :
      SectionEnd pool index ({ pool with queue }, phase)

/-- What the first section of a worker leads to. -/
theorem worker_loop_end (pool : Pool Task) (index : Nat) :
    SectionEnd pool index (workerLoop pool index) := by
  unfold workerLoop
  split
  · exact .stays pool.queue .waiting rfl
  · split
    · next hshutdown => exact .exits (Or.inl hshutdown)
    · split
      · exact .stays _ _ rfl
      · exact .stays _ _ rfl

/-- What the section behind a wait leads to. -/
theorem worker_wake_end (pool : Pool Task) (index : Nat) (timedOut : Bool) :
    SectionEnd pool index (workerWake pool index timedOut) := by
  unfold workerWake
  split
  · next hidle => exact .exits (Or.inr hidle.2.2)
  · exact worker_loop_end pool index

/-- The steps of a run by what they do. -/
inductive PoolStep (run : PoolRun Task) : PoolLabel Task → PoolRun Task → Prop
  | addTask (task : Task) (memory : Option (Nat → Task)) (created : Bool) :
      PoolStep run (.addTask task memory created)
        (run.started (threadPoolAddTask run.pool task memory created run.workers.length).2)
  | readArg {w slot index : Nat} (hworker : run.workers[w]? = some ⟨slot, index, .starting⟩) :
      PoolStep run (.readArg w)
        { run with
          workers := run.workers.set w
            { slot, index := run.pool.workerArgs slot, phase := .ready } }
  | move {label : PoolLabel Task} {w : Nat} {worker : Worker Task}
      {result : Pool Task × Phase Task}
      (hlabel : ∀ task memory created, label ≠ .addTask task memory created)
      (hworker : run.workers[w]? = some worker) (hlive : worker.phase.isExited = false)
      (hstarted : worker.phase ≠ .starting) (hend : SectionEnd run.pool worker.index result) :
      PoolStep run label (run.move w worker result)
  | shutdown : PoolStep run .shutdown { run with pool := { run.pool with shutdown := true } }
  | join (hshutdown : run.pool.shutdown = true) :
      PoolStep run .join
        { run with joined := run.joined ++ [run.pool.threads run.joined.length] }

/-- Every step is one of these. -/
theorem pool_step_of_next {run following : PoolRun Task} {label : PoolLabel Task}
    (hnext : poolNext run label = some following) : PoolStep run label following := by
  cases label with
  | addTask task memory created =>
      cases hnext
      exact .addTask task memory created
  | readArg w =>
      simp only [poolNext] at hnext
      split at hnext
      next hworker =>
        cases hnext
        exact .readArg hworker
      next => cases hnext
  | enter w =>
      simp only [poolNext] at hnext
      split at hnext
      next hworker =>
        cases hnext
        exact .move nofun hworker rfl nofun (worker_loop_end _ _)
      next => cases hnext
  | wake w timedOut =>
      simp only [poolNext] at hnext
      split at hnext
      next hworker =>
        cases hnext
        exact .move nofun hworker rfl nofun (worker_wake_end _ _ _)
      next => cases hnext
  | finish w =>
      simp only [poolNext] at hnext
      split at hnext
      next hworker =>
        cases hnext
        exact .move nofun hworker rfl nofun (.stays run.pool.queue .ready rfl)
      next => cases hnext
  | shutdown =>
      cases hnext
      exact .shutdown
  | join =>
      simp only [poolNext] at hnext
      split at hnext
      next hready =>
        cases hnext
        exact .join hready.1
      next => cases hnext

/-- Adding the task makes the pool grow. -/
def Pool.GrowsOn (pool : Pool Task) (task : Task) (memory : Option (Nat → Task)) : Prop :=
  pool.shutdown = false ∧ (taskQueuePush pool.queue task memory).1 = true ∧
    Pool.Grows { pool with queue := (taskQueuePush pool.queue task memory).2 }

instance (pool : Pool Task) (task : Task) (memory : Option (Nat → Task)) :
    Decidable (pool.GrowsOn task memory) :=
  inferInstanceAs (Decidable (_ ∧ _ ∧ _))

/-- What `thread_pool_add_task` does to the pool: at most it queues the task, or it starts a
worker as well. -/
theorem add_task_cases (pool : Pool Task) (task : Task) (memory : Option (Nat → Task))
    (created : Bool) (thread : Nat) :
    (¬ pool.GrowsOn task memory ∧
        ∃ queue, (threadPoolAddTask pool task memory created thread).2 =
          ({ pool with queue }, none)) ∨
      (pool.GrowsOn task memory ∧
        ∃ queue, queue = (taskQueuePush pool.queue task memory).2 ∧
          (threadPoolAddTask pool task memory created thread).2 =
            startWorker (pickSlot { pool with queue }).2 (pickSlot { pool with queue }).1 created
              thread) := by
  unfold threadPoolAddTask Pool.GrowsOn
  split
  · next hshutdown =>
      exact Or.inl ⟨fun hgrows => by simp [hshutdown] at hgrows, pool.queue, rfl⟩
  · next hshutdown =>
      have hrunning : pool.shutdown = false := by simpa using hshutdown
      split
      · next hpush =>
          exact Or.inl ⟨fun hgrows => by simp [hpush] at hgrows, _, rfl⟩
      · next queue hpush =>
          simp only
          split
          · next hgrows =>
              exact Or.inr ⟨⟨hrunning, by rw [hpush], by rw [hpush]; exact hgrows⟩, queue,
                by rw [hpush], rfl⟩
          · next hgrows =>
              exact Or.inl ⟨fun hall => hgrows (by rw [hpush] at hall; exact hall.2.2), queue, rfl⟩

/-- The slot for a new worker: the top of the stack, no slot at all, or the first that was never
used. -/
theorem pick_slot_cases (pool : Pool Task) :
    (∃ count, pool.freeCount = count + 1 ∧
        pickSlot pool = (pool.freeIndices count, { pool with freeCount := count })) ∨
      (pool.freeCount = 0 ∧ pool.maxThreads ≤ pool.threadsCreated ∧
        pickSlot pool = (pool.maxThreads, pool)) ∨
      (pool.freeCount = 0 ∧ pool.threadsCreated < pool.maxThreads ∧
        pickSlot pool =
          (pool.threadsCreated, { pool with threadsCreated := pool.threadsCreated + 1 })) := by
  unfold pickSlot
  split
  · next hfree => exact Or.inl ⟨pool.freeCount - 1, by omega, rfl⟩
  · next hfree =>
      split
      · next hfull => exact Or.inr (Or.inl ⟨by omega, hfull, rfl⟩)
      · next hroom => exact Or.inr (Or.inr ⟨by omega, by omega, rfl⟩)

/-- The pool after `pthread_create` was called for a slot. -/
def Pool.withWorker (pool : Pool Task) (index : Nat) (created : Bool) (thread : Nat) :
    Pool Task :=
  { pool with
    workerArgs := Function.update pool.workerArgs index index
    threads := Function.update pool.threads index (if created then some thread else none)
    numThreads := pool.numThreads + created.toNat }

/-- Growth with a slot for the worker. -/
theorem start_worker_eq {index : Nat} (hindex : index < pool.maxThreads) (created : Bool)
    (thread : Nat) :
    startWorker pool index created thread =
      (pool.withWorker index created thread, if created then some index else none) := by
  cases created <;> simp [startWorker, hindex, Pool.withWorker]

/-- Growth without a slot for the worker. -/
theorem start_worker_full (pool : Pool Task) (created : Bool) (thread : Nat) :
    startWorker pool pool.maxThreads created thread = (pool, none) := by
  simp [startWorker]

/-! ## One step -/

/-- A move of a worker exchanges the slot it held for the one it holds now. -/
theorem live_slots_set {run : PoolRun Task} {w : Nat} (hworker : run.workers[w]? = some worker) :
    ∃ rest, run.liveSlots.Perm (worker.held ++ rest) ∧
      ∀ moved : Worker Task,
        (inventory (fun _ => Worker.held) (run.workers.set w moved)).Perm
          (moved.held ++ rest) := by
  have hmoves : ∃ rest, ([] ++ run.liveSlots ++ []).Perm (worker.held ++ rest) ∧
      ∀ moved : Worker Task,
        ([] ++ inventory (fun _ => Worker.held) (run.workers.set w moved) ++ []).Perm
          (moved.held ++ rest) := inventory_set_perm hworker [] []
  simpa only [List.nil_append, List.append_nil] using hmoves

/-- A worker that stays in its slot changes nothing about the slots in use. -/
theorem live_slots_keep {run : PoolRun Task} {w : Nat} (hworker : run.workers[w]? = some worker)
    {moved : Worker Task} (hheld : moved.held = worker.held) :
    (inventory (fun _ => Worker.held) (run.workers.set w moved)).Perm run.liveSlots := by
  obtain ⟨rest, hbefore, hafter⟩ := live_slots_set hworker
  exact (hafter moved).trans (hheld ▸ hbefore.symm)

/-- A worker that is started occupies its slot. -/
theorem live_slots_started (run : PoolRun Task) (pool : Pool Task) (slot : Option Nat) :
    (run.started (pool, slot)).liveSlots = run.liveSlots ++ slot.toList := by
  cases slot with
  | none => simp [PoolRun.liveSlots, PoolRun.started]
  | some slot =>
      simp only [PoolRun.liveSlots, PoolRun.started, Option.toList_some, List.map_cons,
        List.map_nil, inventory_concat]
      rfl

/-- A slot has been picked for a new worker, and `pool` is the pool from then on: the slot is not in
use; it was on top of the stack, or is the first never used. -/
structure Picked (run : PoolRun Task) (pool : Pool Task) (index : Nat) : Prop where
  same : pool = { run.pool with
    queue := pool.queue, freeCount := pool.freeCount, threadsCreated := pool.threadsCreated }
  nodup : (index :: (run.liveSlots ++ pool.freeSlots)).Nodup
  bounded : ∀ slot ∈ index :: (run.liveSlots ++ pool.freeSlots), slot < pool.threadsCreated
  created_le : pool.threadsCreated ≤ pool.maxThreads
  args : ∀ slot < pool.threadsCreated, slot ≠ index → pool.workerArgs slot = slot
  rest : ∀ slot ∈ run.liveSlots ++ pool.freeSlots, slot ∈ run.occupied
  origin :
    (run.pool.freeCount ≠ 0 ∧ index ∈ run.occupied ∧
        pool.threadsCreated = run.pool.threadsCreated) ∨
      (run.pool.freeCount = 0 ∧ index = run.pool.threadsCreated ∧
        pool.threadsCreated = run.pool.threadsCreated + 1)

namespace PoolRun.Sound

variable {run : PoolRun Task} {w : Nat} {worker : Worker Task}

/-- What holds of the old workers and of the one that has moved holds of all. -/
theorem read_set (hsound : run.Sound) {moved : Worker Task}
    (hread : moved.phase ≠ .starting → moved.index = moved.slot) :
    ∀ other ∈ run.workers.set w moved, other.phase ≠ .starting → other.index = other.slot := by
  intro other hother
  rcases List.mem_or_eq_of_mem_set hother with hother | rfl
  · exact hsound.read other hother
  · exact hread

/-- A worker that stays in its slot, with a task taken from the queue or not. -/
theorem keeps (hsound : run.Sound) (hworker : run.workers[w]? = some worker)
    (moved : Worker Task) (hheld : moved.held = worker.held)
    (hread : moved.phase ≠ .starting → moved.index = moved.slot) (queue : TaskQueue Task) :
    PoolRun.Sound
      { run with pool := { run.pool with queue }, workers := run.workers.set w moved } := by
  have hlive := live_slots_keep hworker hheld
  have hoccupied := hlive.append_right run.pool.freeSlots
  exact
    { hsound with
      nodup := hoccupied.nodup_iff.mpr hsound.nodup
      bounded := fun slot hslot => hsound.bounded slot (hoccupied.mem_iff.mp hslot)
      counted := hsound.counted.trans hlive.length_eq.symm
      read := hsound.read_set hread }

/-- A worker that ends leaves the slots of the others in use. -/
theorem live_slots_exits (hworker : run.workers[w]? = some worker)
    (hlive : worker.phase.isExited = false) :
    run.liveSlots.Perm (worker.slot :: inventory (fun _ => Worker.held)
      (run.workers.set w { worker with phase := .exited })) := by
  obtain ⟨rest, hbefore, hafter⟩ := live_slots_set hworker
  rw [Worker.held_live hlive] at hbefore
  exact hbefore.trans ((hafter { worker with phase := .exited }).symm.cons worker.slot)

/-- The slot of a worker that ends goes to the stack. -/
theorem occupied_exits (hsound : run.Sound) (hworker : run.workers[w]? = some worker)
    (hlive : worker.phase.isExited = false) :
    (run.move w worker (markThreadExit run.pool worker.slot, .exited)).occupied.Perm
      run.occupied := by
  obtain ⟨hfree, hnum⟩ := hsound.guards hworker hlive
  rw [mark_thread_exit_eq hfree hnum]
  simp only [PoolRun.occupied, PoolRun.liveSlots, PoolRun.move, Pool.freeSlots, stack_push]
  refine List.Perm.trans ?_ ((live_slots_exits hworker hlive).symm.append_right _)
  rw [← List.append_assoc]
  exact List.perm_append_comm

/-- A worker that ends leaves the others sound. -/
theorem exits (hsound : run.Sound) (hworker : run.workers[w]? = some worker)
    (hlive : worker.phase.isExited = false) (hindex : worker.index = worker.slot)
    (hcause : run.pool.shutdown = true ∨ run.pool.minThreads < run.pool.numThreads) :
    (run.move w worker (markThreadExit run.pool worker.slot, .exited)).Sound := by
  obtain ⟨hfree, hnum⟩ := hsound.guards hworker hlive
  have hoccupied := hsound.occupied_exits hworker hlive
  have hlength := (live_slots_exits hworker hlive).length_eq
  rw [List.length_cons] at hlength
  have hcounted := hsound.counted
  have hmin := hsound.min_le
  refine
    { nodup := hoccupied.nodup_iff.mpr hsound.nodup
      bounded := fun slot hslot => ?_
      created_le := ?_
      counted := ?_
      min_pos := ?_
      min_le := ?_
      args := ?_
      read := hsound.read_set fun _ => hindex }
  all_goals simp only [PoolRun.move, mark_thread_exit_eq hfree hnum]
  · exact hsound.bounded slot (hoccupied.mem_iff.mp hslot)
  · exact hsound.created_le
  · have hleft : run.pool.numThreads - 1 = (inventory (fun _ => Worker.held)
        (run.workers.set w { worker with phase := .exited })).length := by omega
    exact hleft
  · exact hsound.min_pos
  · intro hrunning
    rcases hcause with hshutdown | hmore
    · exact absurd (hshutdown.symm.trans hrunning) (by decide)
    · omega
  · exact hsound.args

/-- A worker is started in the slot that has been picked, or fails to be started there and the
slot is lost. -/
theorem grows (hsound : run.Sound) {pool : Pool Task} {index : Nat}
    (hpicked : Picked run pool index) (created : Bool) (thread : Nat) :
    (run.started (startWorker pool index created thread)).Sound := by
  obtain ⟨hpool, hnodup, hbounded, hcreated, hargs, -, -⟩ := hpicked
  have hindex : index < pool.threadsCreated := hbounded index List.mem_cons_self
  rw [start_worker_eq (by omega)]
  generalize hslot : (if created then some index else none) = slot
  have hlive := live_slots_started run (pool.withWorker index created thread) slot
  have hoccupied : (run.started (pool.withWorker index created thread, slot)).occupied =
      run.liveSlots ++ slot.toList ++ pool.freeSlots := by
    rw [PoolRun.occupied, hlive]
    rfl
  have hnum : pool.numThreads = run.liveSlots.length := by
    rw [hpool]
    exact hsound.counted
  have hmin : pool.minThreads = run.pool.minThreads := by rw [hpool]
  have hshut : pool.shutdown = run.pool.shutdown := by rw [hpool]
  have hsub : (run.liveSlots ++ slot.toList ++ pool.freeSlots).Subperm
      (index :: (run.liveSlots ++ pool.freeSlots)) := by
    -- The slot is used, or not used at all.
    cases created with
    | false =>
        subst hslot
        simpa using (List.sublist_cons_self index _).subperm
    | true =>
        subst hslot
        refine List.Perm.subperm ?_
        simp
  exact
    { nodup := by
        obtain ⟨part, hperm, hpart⟩ := hsub
        rw [hoccupied]
        exact hperm.nodup_iff.mp (hnodup.sublist hpart)
      bounded := by
        rw [hoccupied]
        exact fun other hother => hbounded other (hsub.subset hother)
      created_le := hcreated
      counted := by
        rw [hlive]
        cases created <;> subst hslot <;> simp [PoolRun.started, Pool.withWorker, hnum]
      min_pos := hmin ▸ hsound.min_pos
      min_le := fun hrunning => by
        have hle := hsound.min_le (hshut ▸ hrunning)
        have hcounted := hsound.counted
        show pool.minThreads ≤ pool.numThreads + created.toNat
        omega
      args := fun other hother => by
        show Function.update pool.workerArgs index index other = other
        by_cases heq : other = index
        · rw [heq, Function.update_self]
        · rw [Function.update_of_ne heq]
          exact hargs other hother heq
      read := fun other hother hphase => by
        rcases List.mem_append.mp hother with hother | hother
        · exact hsound.read other hother hphase
        · obtain ⟨_, -, rfl⟩ := List.mem_map.mp hother
          exact absurd rfl hphase }

/-- A step that changes no more than the queue. -/
theorem queued (hsound : run.Sound) (queue : TaskQueue Task) :
    (run.started ({ run.pool with queue }, none)).Sound := by
  have hsame : run.started ({ run.pool with queue }, none) =
      { run with pool := { run.pool with queue } } := by
    simp [PoolRun.started]
  rw [hsame]
  exact { hsound with }

/-- What picking a slot gives: a slot for the worker, or none and an unchanged pool. -/
theorem pick (hsound : run.Sound) (queue : TaskQueue Task) :
    Picked run (pickSlot { run.pool with queue }).2 (pickSlot { run.pool with queue }).1 ∨
      pickSlot { run.pool with queue } = (run.pool.maxThreads, { run.pool with queue }) := by
  rcases pick_slot_cases { run.pool with queue } with
    ⟨count, hcount, hpick⟩ | ⟨-, -, hpick⟩ | ⟨hempty, hroom, hpick⟩
  · -- The slot on top of the stack becomes the worker's.
    have hcount : run.pool.freeCount = count + 1 := hcount
    have hperm : run.occupied.Perm (run.pool.freeIndices count ::
        (run.liveSlots ++ stack run.pool.freeIndices count)) := by
      rw [PoolRun.occupied, Pool.freeSlots, hcount, stack_succ, ← List.append_assoc]
      exact List.perm_append_singleton _ _
    rw [hpick]
    exact Or.inl
      { same := rfl
        nodup := hperm.nodup_iff.mp hsound.nodup
        bounded := fun slot hslot => hsound.bounded slot (hperm.mem_iff.mpr hslot)
        created_le := hsound.created_le
        args := fun slot hslot _ => hsound.args slot hslot
        rest := fun slot hslot => hperm.mem_iff.mpr (List.mem_cons_of_mem _ hslot)
        origin := Or.inl ⟨by omega, hperm.mem_iff.mpr List.mem_cons_self, rfl⟩ }
  · exact Or.inr hpick
  · -- The first slot that was never used is not among those in use or on the stack.
    rw [hpick]
    refine Or.inl
      { same := rfl
        nodup := List.nodup_cons.mpr ⟨fun hmem => ?_, hsound.nodup⟩
        bounded := fun slot hslot => ?_
        created_le := hroom
        args := fun slot hslot hne => ?_
        rest := fun _ hslot => hslot
        origin := Or.inr ⟨hempty, rfl, rfl⟩ }
    · exact lt_irrefl _ (hsound.bounded _ hmem)
    · rcases List.mem_cons.mp hslot with rfl | hslot
      · exact Nat.lt_succ_self _
      · exact Nat.lt_succ_of_lt (hsound.bounded slot hslot)
    · have hlt : slot < run.pool.threadsCreated + 1 := hslot
      have hne : slot ≠ run.pool.threadsCreated := hne
      exact hsound.args slot (by omega)

/-- Adding a task keeps the slots sound, whatever `pthread_create` does. -/
theorem adds (hsound : run.Sound) (task : Task) (memory : Option (Nat → Task)) (created : Bool)
    (thread : Nat) :
    (run.started (threadPoolAddTask run.pool task memory created thread).2).Sound := by
  rcases add_task_cases run.pool task memory created thread with
    ⟨-, queue, heq⟩ | ⟨-, queue, -, heq⟩
  · rw [heq]
    exact hsound.queued queue
  · rw [heq]
    rcases hsound.pick queue with hpicked | hfull
    · exact hsound.grows hpicked created thread
    · rw [hfull]
      have hnone := start_worker_full { run.pool with queue } created thread
      exact hnone ▸ hsound.queued queue

/-- A section of a worker's code keeps the slots sound. -/
theorem moves (hsound : run.Sound) (hworker : run.workers[w]? = some worker)
    (hlive : worker.phase.isExited = false) (hstarted : worker.phase ≠ .starting)
    {result : Pool Task × Phase Task} (hend : SectionEnd run.pool worker.index result) :
    (run.move w worker result).Sound := by
  have hindex := hsound.read worker (List.mem_of_getElem? hworker) hstarted
  cases hend with
  | exits hcause =>
      rw [hindex]
      exact hsound.exits hworker hlive hindex hcause
  | stays queue phase hstays =>
      refine hsound.keeps hworker { worker with phase } ?_ (fun _ => hindex) queue
      rw [Worker.held_live hlive]
      exact Worker.held_live hstays

/-- Every step keeps the slots sound. -/
theorem step {following : PoolRun Task} {label : PoolLabel Task} (hsound : run.Sound)
    (hnext : poolNext run label = some following) : following.Sound := by
  cases pool_step_of_next hnext with
  | addTask task memory created => exact hsound.adds task memory created run.workers.length
  | @readArg w slot index hworker =>
      have hmem : slot ∈ run.occupied := List.mem_append_left _
        (mem_inventory.mpr ⟨w, _, hworker, List.mem_singleton_self slot⟩)
      exact hsound.keeps hworker ⟨slot, run.pool.workerArgs slot, .ready⟩ rfl
        (fun _ => hsound.args slot (hsound.bounded slot hmem)) run.pool.queue
  | move _ hworker hlive hstarted hend => exact hsound.moves hworker hlive hstarted hend
  | shutdown => exact { hsound with min_le := nofun }
  | join => exact { hsound with }

end PoolRun.Sound

/-! ## Whole runs -/

/-- The minimum is at least one and at most the maximum. -/
theorem effective_min_bounds (minThreads : Nat) (hmax : maxThreads ≠ 0) :
    1 ≤ effectiveMin minThreads maxThreads ∧
      effectiveMin minThreads maxThreads ≤ maxThreads := by
  simp only [effectiveMin]
  split <;> split <;> omega

/-- What `thread_pool_create` returns. -/
theorem create_cases {minThreads : Nat} {memory : Option (Nat → Task)}
    {arrays : Option (Nat → Nat)} {created : Nat → Bool}
    (hcreate : threadPoolCreate minThreads maxThreads memory arrays created = some pool) :
    ∃ queue minThreads garbage, 1 ≤ minThreads ∧ minThreads ≤ maxThreads ∧
      pool = .initial queue minThreads maxThreads garbage := by
  simp only [threadPoolCreate] at hcreate
  split at hcreate
  · cases hcreate
  · next hmax =>
      obtain ⟨hpos, hle⟩ := effective_min_bounds minThreads hmax
      split at hcreate
      · next queue garbage =>
          obtain ⟨-, hpool⟩ := Option.ite_none_right_eq_some.mp hcreate
          exact ⟨_, _, _, hpos, hle, (Option.some.inj hpool).symm⟩
      · cases hcreate

/-- The first workers occupy the first slots. -/
theorem inventory_initial (count : Nat) :
    inventory (fun _ => Worker.held)
        ((List.range count).map fun slot => (⟨slot, 0, .starting⟩ : Worker Task)) =
      List.range count := by
  induction count with
  | zero => rfl
  | succ count ih =>
      rw [List.range_succ, List.map_append, List.map_singleton, inventory_concat, ih]
      rfl

/-- The slots are sound when `thread_pool_create` returns. -/
theorem start_sound {minThreads : Nat} {memory : Option (Nat → Task)}
    {arrays : Option (Nat → Nat)} {created : Nat → Bool}
    (hcreate : threadPoolCreate minThreads maxThreads memory arrays created = some pool) :
    (PoolRun.start pool).Sound := by
  obtain ⟨queue, count, garbage, hpos, hle, rfl⟩ := create_cases hcreate
  have hlive : (PoolRun.start (.initial queue count maxThreads garbage)).liveSlots =
      List.range count := inventory_initial count
  have hoccupied : (PoolRun.start (.initial queue count maxThreads garbage)).occupied =
      List.range count := by
    rw [PoolRun.occupied, hlive]
    exact List.append_nil _
  exact
    { nodup := hoccupied ▸ List.nodup_range
      bounded := by
        rw [hoccupied]
        exact fun slot hslot => List.mem_range.mp hslot
      created_le := hle
      counted := by
        rw [hlive]
        exact List.length_range.symm
      min_pos := hpos
      min_le := fun _ => le_rfl
      args := fun slot hslot => if_pos hslot
      read := fun worker hworker hphase => by
        obtain ⟨_, -, rfl⟩ := List.mem_map.mp hworker
        exact absurd rfl hphase }

/-- As many slots are in use as there are live workers. -/
theorem length_live_slots (run : PoolRun Task) :
    run.liveSlots.length = run.workers.countP fun worker => !worker.phase.isExited := by
  rw [PoolRun.liveSlots]
  induction run.workers using List.reverseRecOn with
  | nil => rfl
  | append_singleton workers worker ih =>
      rw [inventory_concat, List.length_append, ih, List.countP_append]
      cases hphase : worker.phase.isExited <;> simp [Worker.held, hphase]

/-- Throughout every run: the live workers are in different slots, the slots on the stack are
different from each other and from those, and all are below `threads_created`, at most
`max_threads`; `num_threads` is the number of live workers, at most `max_threads` and, before the
shutdown, at least `min_threads`, which is at least 1; and whenever a live worker calls
`mark_thread_exit` both its guards hold. -/
theorem workers_sound (minThreads maxThreads : Nat) (memory : Option (Nat → Task))
    (arrays : Option (Nat → Nat)) (created : Nat → Bool) (pool : Pool Task)
    (hcreate : threadPoolCreate minThreads maxThreads memory arrays created = some pool)
    (labels : List (PoolLabel Task)) (final : PoolRun Task)
    (hrun : run poolNext (.start pool) labels = some final) :
    final.liveSlots.Nodup ∧ final.pool.freeSlots.Nodup ∧
      (∀ slot ∈ final.pool.freeSlots, slot ∉ final.liveSlots) ∧
      (∀ slot, slot ∈ final.liveSlots ∨ slot ∈ final.pool.freeSlots →
        slot < final.pool.threadsCreated) ∧
      final.pool.threadsCreated ≤ final.pool.maxThreads ∧
      final.pool.numThreads = (final.workers.countP fun worker => !worker.phase.isExited) ∧
      final.pool.numThreads ≤ final.pool.maxThreads ∧
      (final.pool.shutdown = false → final.pool.minThreads ≤ final.pool.numThreads) ∧
      1 ≤ final.pool.minThreads ∧
      ∀ (w : Nat) (worker : Worker Task), final.workers[w]? = some worker →
        worker.phase.isExited = false →
          final.pool.freeCount < final.pool.maxThreads ∧ 0 < final.pool.numThreads := by
  have hsound : final.Sound :=
    run_preserves (fun _ _ _ hinv hnext => hinv.step hnext) (start_sound hcreate) hrun
  obtain ⟨hlive, hfree, hdisjoint⟩ := List.nodup_append.mp hsound.nodup
  have hcounted := hsound.counted
  have hle := hsound.live_add_free_le
  refine ⟨hlive, hfree, fun slot hslot hmem => hdisjoint slot hmem slot hslot rfl,
    fun slot hslot => ?_, hsound.created_le, hcounted.trans (length_live_slots final), by omega,
    hsound.min_le, hsound.min_pos, fun w worker hworker => hsound.guards hworker⟩
  exact hsound.bounded slot (List.mem_append.mpr hslot)

/-- Two tasks make the pool grow; its second worker is idle for too long and ends; two more tasks
make it grow again. -/
def shrinkAndGrow : List (PoolLabel Nat) :=
  [.addTask 1 none true, .addTask 2 none true, .readArg 0, .readArg 1, .enter 0, .enter 1,
    .finish 0, .finish 1, .enter 0, .enter 1, .wake 1 true, .addTask 3 none true,
    .addTask 4 none true]

/-- The pool of one to two workers, once created. -/
def smallPool : Pool Nat :=
  .initial { tasks := fun _ => 0, capacity := 256, count := 0, front := 0, rear := 0 } 1 2
    fun _ => 0

/-- The third worker is in the slot that the second has left. -/
theorem workers_sound_shrink_and_grow :
    ∃ final, run poolNext (.start smallPool) shrinkAndGrow = some final ∧
      final.liveSlots = [0, 1] ∧ final.workers.length = 3 ∧
      final.pool.numThreads = (final.workers.countP fun worker => !worker.phase.isExited) :=
  ⟨_, rfl, rfl, rfl, (workers_sound 1 2 (some fun _ => 0) (some fun _ => 0) (fun _ => true)
    smallPool rfl shrinkAndGrow _ rfl).2.2.2.2.2.1⟩

end Emme.ThreadPool
