import Emme.ThreadPool.Workers

/-!
# What becomes of a task

The pool with the history of its tasks: accepted, taken from the queue, returned. An accepted task
is in the queue, or on one worker, or done, and the tasks are taken in the order in which they were
accepted (`tasks_served_in_order`). A shutdown leaves the queue as it is.
-/

namespace Emme.ThreadPool

open Execution Threads RingBuffer

variable {Task : Type}

/-! ## The history of a run -/

/-- The task that a worker executes. -/
def Phase.executing : Phase Task → List Task
  | .busy task => [task]
  | _ => []

/-- The tasks that are on a worker. -/
def PoolRun.executing (run : PoolRun Task) : List Task :=
  inventory (fun _ worker => worker.phase.executing) run.workers

/-- The task for which `thread_pool_add_task` answers `true`. -/
def PoolRun.accepts (run : PoolRun Task) : PoolLabel Task → List Task
  | .addTask task memory created =>
      if (threadPoolAddTask run.pool task memory created run.workers.length).1 then [task] else []
  | _ => []

/-- The task that a worker takes from the queue. -/
def PoolRun.begins (run : PoolRun Task) : PoolLabel Task → List Task
  | .enter w =>
      run.workers[w]?.elim [] fun worker => (workerLoop run.pool worker.index).2.executing
  | .wake w timedOut =>
      run.workers[w]?.elim [] fun worker =>
        (workerWake run.pool worker.index timedOut).2.executing
  | _ => []

/-- The task whose function returns. -/
def PoolRun.finishes (run : PoolRun Task) : PoolLabel Task → List Task
  | .finish w => run.workers[w]?.elim [] fun worker => worker.phase.executing
  | _ => []

/-- A run of the pool with the history of its tasks, each list in the order of the events. -/
structure TaskLedger (Task : Type) where
  run : PoolRun Task
  accepted : List Task
  begun : List Task
  finished : List Task

/-- A pool that has just been created. -/
def TaskLedger.start (pool : Pool Task) : TaskLedger Task where
  run := .start pool
  accepted := []
  begun := []
  finished := []

/-- A step of the pool, entered in the history. -/
def TaskLedger.next (ledger : TaskLedger Task) (label : PoolLabel Task) :
    Option (TaskLedger Task) :=
  (poolNext ledger.run label).map fun following =>
    { run := following
      accepted := ledger.accepted ++ ledger.run.accepts label
      begun := ledger.begun ++ ledger.run.begins label
      finished := ledger.finished ++ ledger.run.finishes label }

/-- The step does not double the ring of the queue while `front` is 0. -/
def PoolRun.GrowsOffStart (run : PoolRun Task) : PoolLabel Task → Prop
  | .addTask task memory _ =>
      run.pool.shutdown = false → run.pool.queue.GrowsOffStart (.push task memory)
  | _ => True

instance (run : PoolRun Task) : DecidablePred run.GrowsOffStart
  | .addTask _ _ _ => inferInstanceAs (Decidable (_ → _))
  | .readArg _ | .enter _ | .wake _ _ | .finish _ | .shutdown | .join =>
      inferInstanceAs (Decidable True)

/-! ## What the sections of code do to the queue -/

/-- A worker that ends leaves the queue alone. -/
@[simp]
theorem mark_thread_exit_queue (pool : Pool Task) (index : Nat) :
    (markThreadExit pool index).queue = pool.queue := by
  simp only [markThreadExit]
  split <;> split <;> rfl

/-- A worker that ends leaves the shutdown flag alone. -/
@[simp]
theorem mark_thread_exit_shutdown (pool : Pool Task) (index : Nat) :
    (markThreadExit pool index).shutdown = pool.shutdown := by
  simp only [markThreadExit]
  split <;> split <;> rfl

/-- Choosing a slot leaves the queue alone. -/
@[simp]
theorem pick_slot_queue (pool : Pool Task) : (pickSlot pool).2.queue = pool.queue := by
  unfold pickSlot
  split
  · rfl
  · split <;> rfl

/-- Starting a worker leaves the queue alone. -/
@[simp]
theorem start_worker_queue (pool : Pool Task) (index : Nat) (created : Bool) (thread : Nat) :
    (startWorker pool index created thread).1.queue = pool.queue := by
  simp only [startWorker]
  split
  · cases created <;> rfl
  · rfl

/-- What a worker finds in its section: it takes the oldest task or leaves the queue alone. -/
structure Takes (pool : Pool Task) (result : Pool Task × Phase Task) : Prop where
  valid : result.1.queue.Valid
  taken : pool.queue.contents = result.2.executing ++ result.1.queue.contents

variable {pool : Pool Task} {memory : Option (Nat → Task)} {label : PoolLabel Task}

/-- The first section of a worker takes the oldest task, or none. -/
theorem worker_loop_takes (hvalid : pool.queue.Valid) (index : Nat) :
    Takes pool (workerLoop pool index) := by
  unfold workerLoop
  split
  · exact ⟨hvalid, rfl⟩
  · split
    · refine ⟨?_, ?_⟩ <;> simp only [mark_thread_exit_queue]
      · exact hvalid
      · rfl
    · obtain ⟨hpopped, hstep⟩ := task_queue_pop_spec hvalid
      split
      · next task queue hpop =>
          rw [hpop] at hpopped hstep
          exact ⟨hpopped, hstep.of_popped⟩
      · next queue hpop =>
          rw [hpop] at hpopped hstep
          exact ⟨hpopped, hstep.of_refused⟩

/-- The section behind a wait takes the oldest task, or none. -/
theorem worker_wake_takes (hvalid : pool.queue.Valid) (index : Nat) (timedOut : Bool) :
    Takes pool (workerWake pool index timedOut) := by
  unfold workerWake
  split
  · refine ⟨?_, ?_⟩ <;> simp only [mark_thread_exit_queue]
    · exact hvalid
    · rfl
  · exact worker_loop_takes hvalid index

/-- `thread_pool_add_task` appends the task it accepts to the queue. -/
theorem add_task_queues (hvalid : pool.queue.Valid) (task : Task) (created : Bool) (thread : Nat)
    (hgrow : pool.shutdown = false → pool.queue.GrowsOffStart (.push task memory)) :
    (threadPoolAddTask pool task memory created thread).2.1.queue.Valid ∧
      (threadPoolAddTask pool task memory created thread).2.1.queue.contents =
        pool.queue.contents ++
          if (threadPoolAddTask pool task memory created thread).1 then [task] else [] := by
  unfold threadPoolAddTask
  split
  · exact ⟨hvalid, (List.append_nil _).symm⟩
  · next hrunning =>
      obtain ⟨hpushed, hstep⟩ := task_queue_push_spec hvalid task (hgrow (by simpa using hrunning))
      split
      · next queue hpush =>
          rw [hpush] at hpushed
          have hsame := task_queue_push_refused (congrArg Prod.fst hpush)
          rw [hpush] at hsame
          exact ⟨hpushed, by simp [show queue = pool.queue from hsame]⟩
      · next queue hpush =>
          rw [hpush] at hpushed hstep
          simp only
          split <;>
            simp only [start_worker_queue, pick_slot_queue, if_true] <;>
            exact ⟨hpushed, hstep.of_accepted⟩

/-! ## One step -/

/-- A worker that has been started executes nothing yet. -/
theorem executing_started (run : PoolRun Task) (result : Pool Task × Option Nat) :
    (run.started result).executing = run.executing := by
  obtain ⟨pool, slot⟩ := result
  cases slot with
  | none => simp [PoolRun.executing, PoolRun.started]
  | some slot =>
      simp only [PoolRun.executing, PoolRun.started, Option.toList_some, List.map_cons,
        List.map_nil, inventory_concat]
      exact List.append_nil _

/-- The task of a worker that moves is exchanged for the one it has then. -/
theorem executing_set {run : PoolRun Task} {w : Nat} {worker : Worker Task}
    (hworker : run.workers[w]? = some worker) (moved : Worker Task) :
    (worker.phase.executing ++
        inventory (fun _ worker => worker.phase.executing) (run.workers.set w moved)).Perm
      (moved.phase.executing ++ run.executing) := by
  obtain ⟨rest, hbefore, hafter⟩ :=
    @inventory_set_perm _ _ run.workers (fun _ worker => worker.phase.executing) w worker hworker
      [] []
  simp only [List.nil_append, List.append_nil] at hbefore hafter
  have hheld : run.executing.Perm (worker.phase.executing ++ rest) := hbefore
  refine ((hafter moved).append_left _).trans ?_
  refine List.Perm.trans ?_ (hheld.symm.append_left _)
  rw [← List.append_assoc, ← List.append_assoc]
  exact List.perm_append_comm.append_right rest

/-- What a step does with the tasks: it moves them from the end of the queue to its front, from
there to a worker, and from a worker out of the pool. -/
structure TasksMove (run : PoolRun Task) (label : PoolLabel Task) (following : PoolRun Task) :
    Prop where
  valid : following.pool.queue.Valid
  queue : run.pool.queue.contents ++ run.accepts label =
    run.begins label ++ following.pool.queue.contents
  workers : (run.finishes label ++ following.executing).Perm
    (run.begins label ++ run.executing)

/-- Every step moves the tasks so, if the ring is not doubled while `front` is 0. -/
theorem tasks_move {run following : PoolRun Task} (hvalid : run.pool.queue.Valid)
    (hnext : poolNext run label = some following) (hgrow : run.GrowsOffStart label) :
    TasksMove run label following := by
  cases label with
  | addTask task memory created =>
      cases hnext
      obtain ⟨hqueued, hcontents⟩ :=
        add_task_queues hvalid task created run.workers.length hgrow
      refine ⟨hqueued, hcontents.symm, ?_⟩
      rw [executing_started]
      exact List.Perm.refl _
  | readArg w =>
      simp only [poolNext] at hnext
      split at hnext
      next slot index hworker =>
        cases hnext
        exact ⟨hvalid, List.append_nil _,
          executing_set hworker ⟨slot, run.pool.workerArgs slot, .ready⟩⟩
      next => cases hnext
  | enter w =>
      simp only [poolNext] at hnext
      split at hnext
      next slot index hworker =>
        cases hnext
        obtain ⟨htaken, hcontents⟩ := worker_loop_takes hvalid index
        have hbegins : run.begins (.enter w) = (workerLoop run.pool index).2.executing := by
          simp only [PoolRun.begins, hworker, Option.elim_some]
        refine ⟨htaken, ?_, ?_⟩ <;> rw [hbegins]
        · exact (List.append_nil _).trans hcontents
        · exact executing_set hworker ⟨slot, index, (workerLoop run.pool index).2⟩
      next => cases hnext
  | wake w timedOut =>
      simp only [poolNext] at hnext
      split at hnext
      next slot index hworker =>
        cases hnext
        obtain ⟨htaken, hcontents⟩ := worker_wake_takes hvalid index timedOut
        have hbegins : run.begins (.wake w timedOut) =
            (workerWake run.pool index timedOut).2.executing := by
          simp only [PoolRun.begins, hworker, Option.elim_some]
        refine ⟨htaken, ?_, ?_⟩ <;> rw [hbegins]
        · exact (List.append_nil _).trans hcontents
        · exact executing_set hworker ⟨slot, index, (workerWake run.pool index timedOut).2⟩
      next => cases hnext
  | finish w =>
      simp only [poolNext] at hnext
      split at hnext
      next slot index task hworker =>
        cases hnext
        have hfinishes : run.finishes (.finish w) = [task] := by
          simp only [PoolRun.finishes, hworker, Option.elim_some, Phase.executing]
        refine ⟨hvalid, List.append_nil _, ?_⟩
        rw [hfinishes]
        exact executing_set hworker ⟨slot, index, .ready⟩
      next => cases hnext
  | shutdown =>
      cases hnext
      exact ⟨hvalid, List.append_nil _, List.Perm.refl _⟩
  | join =>
      simp only [poolNext] at hnext
      split at hnext
      next =>
        cases hnext
        exact ⟨hvalid, List.append_nil _, List.Perm.refl _⟩
      next => cases hnext

/-- What the history says of the tasks: those accepted are those taken and, behind them, those in
the queue; those taken are done or on a worker. -/
structure TaskLedger.Balanced (ledger : TaskLedger Task) : Prop where
  valid : ledger.run.pool.queue.Valid
  queued : ledger.accepted = ledger.begun ++ ledger.run.pool.queue.contents
  running : ledger.begun.Perm (ledger.finished ++ ledger.run.executing)

/-- Every step keeps the history balanced. -/
theorem TaskLedger.Balanced.step {ledger following : TaskLedger Task} (h : ledger.Balanced)
    (hgrow : ledger.run.GrowsOffStart label) (hnext : ledger.next label = some following) :
    following.Balanced := by
  obtain ⟨moved, hmoved, rfl⟩ := Option.map_eq_some_iff.mp hnext
  obtain ⟨hvalid, hqueue, hworkers⟩ := tasks_move h.valid hmoved hgrow
  refine ⟨hvalid, ?_, ?_⟩
  · show ledger.accepted ++ ledger.run.accepts label =
      ledger.begun ++ ledger.run.begins label ++ moved.pool.queue.contents
    rw [h.queued, List.append_assoc, List.append_assoc, hqueue]
  · show (ledger.begun ++ ledger.run.begins label).Perm
      (ledger.finished ++ ledger.run.finishes label ++ moved.executing)
    refine (h.running.append_right _).trans ?_
    rw [List.append_assoc, List.append_assoc]
    exact (List.perm_append_comm.trans hworkers.symm).append_left _

/-! After a shutdown the critical sections have one outcome each. -/

section ShutDown

variable {pool : Pool Task} (hshutdown : pool.shutdown = true)

include hshutdown

/-- In a pool that is shut down a worker ends. -/
theorem worker_loop_shut_down (index : Nat) :
    workerLoop pool index = (markThreadExit pool index, .exited) := by
  simp [workerLoop, hshutdown]

/-- In a pool that is shut down a worker that wakes ends. -/
theorem worker_wake_shut_down (index : Nat) (timedOut : Bool) :
    workerWake pool index timedOut = (markThreadExit pool index, .exited) := by
  simp [workerWake, worker_loop_shut_down hshutdown]

/-- A pool that is shut down takes no task. -/
theorem add_task_shut_down (task : Task) (memory : Option (Nat → Task)) (created : Bool)
    (thread : Nat) :
    threadPoolAddTask pool task memory created thread = (false, pool, none) := by
  simp [threadPoolAddTask, hshutdown]

end ShutDown

/-- Once the pool is shut down it stays so, accepts no task and begins none. -/
theorem shut_down_step {run following : PoolRun Task} (hshutdown : run.pool.shutdown = true)
    (hnext : poolNext run label = some following) :
    following.pool.shutdown = true ∧ run.accepts label = [] ∧ run.begins label = [] := by
  cases label with
  | addTask task memory created =>
      cases hnext
      simp [PoolRun.accepts, PoolRun.begins, PoolRun.started, add_task_shut_down hshutdown,
        hshutdown]
  | enter w =>
      simp only [poolNext] at hnext
      split at hnext
      next hworker =>
        cases hnext
        simp [PoolRun.accepts, PoolRun.begins, PoolRun.move, Phase.executing, hworker,
          worker_loop_shut_down hshutdown, hshutdown]
      next => cases hnext
  | wake w timedOut =>
      simp only [poolNext] at hnext
      split at hnext
      next hworker =>
        cases hnext
        simp [PoolRun.accepts, PoolRun.begins, PoolRun.move, Phase.executing, hworker,
          worker_wake_shut_down hshutdown, hshutdown]
      next => cases hnext
  | readArg w | finish w | join =>
      simp only [poolNext] at hnext
      split at hnext
      next =>
        cases hnext
        exact ⟨hshutdown, rfl, rfl⟩
      next => cases hnext
  | shutdown =>
      cases hnext
      exact ⟨rfl, rfl, rfl⟩

/-! ## Whole runs -/

/-- The queue of a new pool is the one that `task_queue_init` has made. -/
theorem create_queue {minThreads maxThreads : Nat} {arrays : Option (Nat → Nat)}
    {created : Nat → Bool}
    (hcreate : threadPoolCreate minThreads maxThreads memory arrays created = some pool) :
    taskQueueInit memory = some pool.queue := by
  simp only [threadPoolCreate] at hcreate
  split at hcreate
  · cases hcreate
  · split at hcreate
    · next queue _ hinit =>
        obtain ⟨-, hpool⟩ := Option.ite_none_right_eq_some.mp hcreate
        cases hpool
        exact hinit
    · cases hcreate

/-- At the start nothing is executed. -/
theorem executing_start (pool : Pool Task) : (PoolRun.start pool).executing = [] := by
  refine List.eq_nil_iff_forall_not_mem.mpr fun task hmem => ?_
  obtain ⟨w, worker, hworker, htask⟩ := mem_inventory.mp hmem
  obtain ⟨slot, -, rfl⟩ := List.mem_map.mp (List.mem_of_getElem? hworker)
  exact List.not_mem_nil htask

/-- The history of a new pool is empty. -/
theorem ledger_start_balanced {minThreads maxThreads : Nat} {arrays : Option (Nat → Nat)}
    {created : Nat → Bool}
    (hcreate : threadPoolCreate minThreads maxThreads memory arrays created = some pool) :
    (TaskLedger.start pool).Balanced := by
  obtain ⟨hvalid, hempty⟩ := task_queue_init_valid (create_queue hcreate)
  refine ⟨hvalid, ?_, ?_⟩
  · show [] = [] ++ pool.queue.contents
    rw [hempty]
    rfl
  · show List.Perm [] ([] ++ (PoolRun.start pool).executing)
    rw [executing_start]
    exact List.Perm.refl _

/-- Throughout every run in which the ring of the queue is not doubled while `front` is 0: the tasks
that were accepted are those that a worker has taken, in the same order, followed by those in the
queue; each task that was taken has returned or is on one worker; and after a shutdown no task is
accepted or taken any more. -/
theorem tasks_served_in_order (minThreads maxThreads : Nat) (memory : Option (Nat → Task))
    (arrays : Option (Nat → Nat)) (created : Nat → Bool) (pool : Pool Task)
    (hcreate : threadPoolCreate minThreads maxThreads memory arrays created = some pool)
    (labels : List (PoolLabel Task)) (final : TaskLedger Task)
    (hgrow : Throughout TaskLedger.next (fun ledger => ledger.run.GrowsOffStart) (.start pool)
      labels)
    (hrun : run TaskLedger.next (.start pool) labels = some final) :
    final.accepted = final.begun ++ final.run.pool.queue.contents ∧
      final.begun.Perm (final.finished ++ final.run.executing) ∧
      (final.run.pool.shutdown = true →
        ∀ (later : List (PoolLabel Task)) (last : TaskLedger Task),
          run TaskLedger.next final later = some last →
            last.accepted = final.accepted ∧ last.begun = final.begun) := by
  have hbalanced : final.Balanced :=
    run_invariant (fun _ _ _ hinv hadmits hnext => hinv.step hadmits hnext)
      (ledger_start_balanced hcreate) hgrow hrun
  refine ⟨hbalanced.queued, hbalanced.running, fun hshutdown later last hlater => ?_⟩
  let kept (ledger : TaskLedger Task) : Prop := ledger.run.pool.shutdown = true ∧
    ledger.accepted = final.accepted ∧ ledger.begun = final.begun
  have hstep : ∀ ledger label following, kept ledger →
      TaskLedger.next ledger label = some following → kept following := by
    rintro ledger label following ⟨hshut, haccepted, hbegun⟩ hnext
    obtain ⟨moved, hmoved, rfl⟩ := Option.map_eq_some_iff.mp hnext
    obtain ⟨hstill, hnone, hidle⟩ := shut_down_step hshut hmoved
    refine ⟨hstill, ?_, ?_⟩
    · show ledger.accepted ++ _ = _
      rw [hnone, List.append_nil, haccepted]
    · show ledger.begun ++ _ = _
      rw [hidle, List.append_nil, hbegun]
  have hstart : kept final := ⟨hshutdown, rfl, rfl⟩
  exact (run_preserves hstep hstart hlater).2

/-- One of three tasks has been taken when the pool is shut down. -/
def shutDownEarly : List (PoolLabel Nat) :=
  [.addTask 1 none true, .addTask 2 none true, .addTask 3 none true, .readArg 0, .enter 0,
    .shutdown, .finish 0, .enter 0]

/-- The first task is finished, and the two others stay in the queue. -/
theorem tasks_served_in_order_shut_down_early :
    ∃ final, run TaskLedger.next (.start smallPool) shutDownEarly = some final ∧
      final.accepted = [1, 2, 3] ∧ final.finished = [1] ∧
      final.run.pool.queue.contents = [2, 3] ∧
      final.accepted = final.begun ++ final.run.pool.queue.contents :=
  ⟨_, rfl, rfl, rfl, rfl, (tasks_served_in_order 1 2 (some fun _ => 0) (some fun _ => 0)
    (fun _ => true) smallPool rfl shutDownEarly _ (by decide) rfl).1⟩

end Emme.ThreadPool
