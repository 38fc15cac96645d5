import Emme.ThreadPool.Delivery
import Emme.ThreadPool.Join

/-!
# The condition variable of the thread pool

A worker that finds no task sleeps in `pthread_cond_timedwait`; it is woken by a signal, or on its
own. While some worker sleeps, as many workers are awake and without a task as there are tasks in
the queue (`no_task_overslept`). After a shutdown the workers end after finitely many steps and wait
for nothing that is missing (`destroy_returns`), if no `pthread_create` fails: the handle of a
thread that could not be started is undefined.
-/

namespace Emme.ThreadPool

open Execution Threads

variable {Task : Type}

/-! ## The machine -/

/-- A run of the pool with the workers that sleep in `pthread_cond_timedwait`. -/
structure CondRun (Task : Type) where
  run : PoolRun Task
  asleep : List Nat

/-- A step of the pool, in which `pthread_cond_signal` wakes `woken` if it is called and some
worker sleeps, or a sleeper that wakes without being signalled. -/
inductive CondLabel (Task : Type) where
  | step (label : PoolLabel Task) (woken : Nat)
  | rouse (worker : Nat)

/-- No worker of a new pool sleeps. -/
def CondRun.start (pool : Pool Task) : CondRun Task := ⟨.start pool, []⟩

/-- `pthread_cond_signal`: one of the sleepers wakes, if there is one. -/
def condSignal (asleep : List Nat) (woken : Nat) : Option (List Nat) :=
  if asleep = [] then some []
  else if woken ∈ asleep then some (asleep.erase woken)
  else none

/-- The sleepers after a section of code in which the worker may have fallen asleep. -/
def PoolRun.sleepers (run : PoolRun Task) (w : Nat) (asleep : List Nat) : List Nat :=
  match run.workers[w]? with
  | some ⟨_, _, .waiting⟩ => w :: asleep
  | _ => asleep

/-- One step. -/
def CondRun.next (state : CondRun Task) : CondLabel Task → Option (CondRun Task)
  | .rouse w =>
      if w ∈ state.asleep then some { state with asleep := state.asleep.erase w } else none
  | .step label woken =>
      (poolNext state.run label).bind fun run =>
        match label with
        | .addTask _ _ _ =>
            -- a task that is refused is not signalled
            if state.run.accepts label = [] then some { state with run }
            else (condSignal state.asleep woken).map fun asleep => { run, asleep }
        | .enter w => some { run, asleep := run.sleepers w state.asleep }
        | .wake w _ =>
            if w ∈ state.asleep then none
            else some { run, asleep := run.sleepers w state.asleep }
        | .shutdown => some { run, asleep := [] }
        | .readArg _ | .finish _ | .join => some { state with run }

/-- The worker is looking for a task. -/
def Phase.isIdle : Phase Task → Bool
  | .starting | .ready | .waiting => true
  | .busy _ | .exited => false

/-- The worker has no task and has not ended. -/
def Worker.isIdle (worker : Worker Task) : Bool := worker.phase.isIdle

/-- The workers that are looking for a task and are not asleep. -/
def CondRun.alert (state : CondRun Task) : List Nat :=
  elsewhere Worker.isIdle state.run.workers state.asleep

/-! ## One step -/

/-- Only workers in `pthread_cond_timedwait` sleep, none after the shutdown, and no sleeper is
needed for a task: the tasks and the sleepers together are no more than the workers without a
task. -/
structure CondRun.Attended (state : CondRun Task) : Prop where
  nodup : state.asleep.Nodup
  waiting : ∀ w ∈ state.asleep,
    ∃ worker, state.run.workers[w]? = some worker ∧ worker.phase = .waiting
  enough : state.asleep ≠ [] →
    state.run.pool.shutdown = false ∧
      state.run.pool.queue.count + state.asleep.length ≤ state.run.workers.countP Worker.isIdle

/-- How a worker's section of code with the lock ends. -/
inductive LoopEnd (pool : Pool Task) (index : Nat) : Pool Task × Phase Task → Prop
  | sleeps (hempty : pool.queue.count = 0) (hrunning : pool.shutdown = false) :
      LoopEnd pool index (pool, .waiting)
  | exits (hcause : pool.shutdown = true ∨ pool.queue.count = 0) :
      LoopEnd pool index (markThreadExit pool index, .exited)
  | takes (task : Task) (queue : TaskQueue Task) (hcount : queue.count + 1 = pool.queue.count) :
      LoopEnd pool index ({ pool with queue }, .busy task)

/-- How the first section of a worker ends. -/
theorem worker_loop_ends (pool : Pool Task) (index : Nat) :
    LoopEnd pool index (workerLoop pool index) := by
  unfold workerLoop
  split
  · next hidle => exact .sleeps hidle.1 hidle.2
  · next hbusy =>
      split
      · next hshutdown => exact .exits (Or.inl hshutdown)
      · next hrunning =>
          have hcount : pool.queue.count ≠ 0 := fun hzero =>
            hbusy ⟨hzero, by simpa using hrunning⟩
          simp only [taskQueuePop, if_neg hcount]
          refine .takes _ _ ?_
          show pool.queue.count - 1 + 1 = pool.queue.count
          omega

/-- How the section behind a wait ends. -/
theorem worker_wake_ends (pool : Pool Task) (index : Nat) (timedOut : Bool) :
    LoopEnd pool index (workerWake pool index timedOut) := by
  unfold workerWake
  split
  · next hidle => exact .exits (Or.inr hidle.2.1)
  · exact worker_loop_ends pool index

/-- Choosing a slot leaves the shutdown flag alone. -/
@[simp]
theorem pick_slot_shutdown (pool : Pool Task) : (pickSlot pool).2.shutdown = pool.shutdown := by
  unfold pickSlot
  split
  · rfl
  · split <;> rfl

/-- Starting a worker leaves the shutdown flag alone. -/
@[simp]
theorem start_worker_shutdown (pool : Pool Task) (index : Nat) (created : Bool) (thread : Nat) :
    (startWorker pool index created thread).1.shutdown = pool.shutdown := by
  simp only [startWorker]
  split
  · cases created <;> rfl
  · rfl

/-- The queue has one more task if it has accepted it. -/
theorem task_queue_push_count (queue : TaskQueue Task) (task : Task)
    (memory : Option (Nat → Task)) :
    (taskQueuePush queue task memory).2.count =
      queue.count + (taskQueuePush queue task memory).1.toNat := by
  unfold taskQueuePush
  split
  · cases memory with
    | none => rfl
    | some newTasks =>
        simp only [taskQueueStore, taskQueueGrow]
        split <;> rfl
  · rfl

/-- An accepted task is counted, whatever becomes of the ring. -/
theorem add_task_counts (pool : Pool Task) (task : Task) (memory : Option (Nat → Task))
    (created : Bool) (thread : Nat) :
    (threadPoolAddTask pool task memory created thread).2.1.shutdown = pool.shutdown ∧
      (threadPoolAddTask pool task memory created thread).2.1.queue.count =
        pool.queue.count + (threadPoolAddTask pool task memory created thread).1.toNat := by
  have hcount := task_queue_push_count pool.queue task memory
  unfold threadPoolAddTask
  split
  · exact ⟨rfl, rfl⟩
  · split
    · next hpush =>
        rw [hpush] at hcount
        exact ⟨rfl, hcount⟩
    · next hpush =>
        rw [hpush] at hcount
        simp only
        split <;>
          simp only [start_worker_queue, start_worker_shutdown, pick_slot_queue,
            pick_slot_shutdown, true_and] <;>
          exact hcount

/-- The pool accepts nothing exactly if `thread_pool_add_task` fails. -/
theorem accepts_nil {run : PoolRun Task} {task : Task} {memory : Option (Nat → Task)}
    {created : Bool} :
    run.accepts (.addTask task memory created) = [] ↔
      (threadPoolAddTask run.pool task memory created run.workers.length).1 = false := by
  simp [PoolRun.accepts]

namespace CondRun.Attended

variable {state : CondRun Task}

variable {w : Nat} {worker : Worker Task}

/-- A worker that is looking for a task and awake is one more than the sleepers. -/
theorem asleep_lt (h : state.Attended) (hworker : state.run.workers[w]? = some worker)
    (hidle : worker.isIdle = true) (hawake : w ∉ state.asleep) :
    state.asleep.length + 1 ≤ state.run.workers.countP Worker.isIdle := by
  have hnodup : (w :: state.asleep).Nodup := List.nodup_cons.mpr ⟨hawake, h.nodup⟩
  refine length_le_count hnodup ?_
  intro c hc
  rcases List.mem_cons.mp hc with rfl | hc
  · exact ⟨worker, hworker, hidle⟩
  · obtain ⟨sleeper, hsleeper, hphase⟩ := h.waiting c hc
    exact ⟨sleeper, hsleeper, by rw [Worker.isIdle, hphase]; rfl⟩

/-- The sleepers sleep on while another worker moves. -/
theorem waiting_set (h : state.Attended) (hawake : w ∉ state.asleep) (moved : Worker Task) :
    ∀ c ∈ state.asleep,
      ∃ worker, (state.run.workers.set w moved)[c]? = some worker ∧ worker.phase = .waiting := by
  intro c hc
  have hne : w ≠ c := fun heq => hawake (heq ▸ hc)
  rw [List.getElem?_set_ne hne]
  exact h.waiting c hc

/-- A worker that is awake goes through a section of code with the lock. -/
theorem moves (h : state.Attended) (hworker : state.run.workers[w]? = some worker)
    (hidle : worker.isIdle = true) (hawake : w ∉ state.asleep) {result : Pool Task × Phase Task}
    (hend : LoopEnd state.run.pool worker.index result) :
    CondRun.Attended
      ⟨state.run.move w worker result,
        (state.run.move w worker result).sleepers w state.asleep⟩ := by
  have hlt := h.asleep_lt hworker hidle hawake
  have hothers := h.waiting_set hawake { worker with phase := result.2 }
  have hcount := count_set_add Worker.isIdle hworker { worker with phase := result.2 }
  have hget : (state.run.workers.set w { worker with phase := result.2 })[w]? =
      some { worker with phase := result.2 } :=
    List.getElem?_set_self (List.getElem?_eq_some_iff.mp hworker).1
  rw [hidle] at hcount
  cases hend with
  | sleeps hempty hrunning =>
      have hsleepers : (state.run.move w worker (state.run.pool, .waiting)).sleepers w
          state.asleep = w :: state.asleep := by
        simp only [PoolRun.sleepers, PoolRun.move, hget]
      rw [hsleepers]
      refine ⟨List.nodup_cons.mpr ⟨hawake, h.nodup⟩, fun c hc => ?_, fun _ => ⟨hrunning, ?_⟩⟩
      · rcases List.mem_cons.mp hc with rfl | hc
        · exact ⟨_, hget, rfl⟩
        · exact hothers c hc
      · show state.run.pool.queue.count + (state.asleep.length + 1) ≤ List.countP _ _
        simp only [PoolRun.move, Worker.isIdle, Phase.isIdle, Bool.toNat_true] at hcount ⊢
        omega
  | exits hcause =>
      have hsleepers : (state.run.move w worker
          (markThreadExit state.run.pool worker.index, .exited)).sleepers w state.asleep =
            state.asleep := by
        simp only [PoolRun.sleepers, PoolRun.move, hget]
      rw [hsleepers]
      refine ⟨h.nodup, hothers, fun hsome => ?_⟩
      obtain ⟨hrunning, henough⟩ := h.enough hsome
      have hempty : state.run.pool.queue.count = 0 :=
        hcause.resolve_left (by simp [hrunning])
      simp only [PoolRun.move, mark_thread_exit_queue, mark_thread_exit_shutdown, Worker.isIdle,
        Phase.isIdle, Bool.toNat_true, Bool.toNat_false] at hcount ⊢
      exact ⟨hrunning, by omega⟩
  | takes task queue hqueue =>
      have hsleepers : (state.run.move w worker
          ({ state.run.pool with queue }, .busy task)).sleepers w state.asleep =
            state.asleep := by
        simp only [PoolRun.sleepers, PoolRun.move, hget]
      rw [hsleepers]
      refine ⟨h.nodup, hothers, fun hsome => ?_⟩
      obtain ⟨hrunning, henough⟩ := h.enough hsome
      simp only [PoolRun.move, Worker.isIdle, Phase.isIdle, Bool.toNat_true,
        Bool.toNat_false] at hcount henough ⊢
      exact ⟨hrunning, by omega⟩

/-- A worker that does not wait gets ready to look for a task. -/
theorem readies (h : state.Attended) {moved : Worker Task}
    (hworker : state.run.workers[w]? = some worker) (hphase : worker.phase ≠ .waiting)
    (hidle : moved.isIdle = true) :
    CondRun.Attended
      { state with run := { state.run with workers := state.run.workers.set w moved } } := by
  have hawake : w ∉ state.asleep := by
    intro hmem
    obtain ⟨sleeper, hsleeper, hwaiting⟩ := h.waiting w hmem
    rw [hworker] at hsleeper
    cases hsleeper
    exact hphase hwaiting
  have hcount := count_set_add Worker.isIdle hworker moved
  have hle : worker.isIdle.toNat ≤ 1 := Bool.toNat_le _
  rw [hidle] at hcount
  refine ⟨h.nodup, h.waiting_set hawake moved, fun hsome => ?_⟩
  obtain ⟨hrunning, henough⟩ := h.enough hsome
  refine ⟨hrunning, ?_⟩
  simp only [Bool.toNat_true] at hcount ⊢
  omega

/-- Workers that are started are no sleepers. -/
theorem waiting_started (h : state.Attended) (result : Pool Task × Option Nat) :
    ∀ c ∈ state.asleep,
      ∃ worker, (state.run.started result).workers[c]? = some worker ∧
        worker.phase = .waiting := by
  intro c hc
  obtain ⟨sleeper, hsleeper, hphase⟩ := h.waiting c hc
  refine ⟨sleeper, ?_, hphase⟩
  rw [PoolRun.started, List.getElem?_append_left (List.getElem?_eq_some_iff.mp hsleeper).1]
  exact hsleeper

/-- Fewer sleepers, and no more tasks for it than workers have been woken. -/
theorem adds (h : state.Attended) {result : Pool Task × Option Nat} {asleep : List Nat}
    (hshutdown : result.1.shutdown = state.run.pool.shutdown) (hnodup : asleep.Nodup)
    (hsub : asleep ⊆ state.asleep)
    (hcount : asleep ≠ [] → result.1.queue.count + asleep.length ≤
      state.run.pool.queue.count + state.asleep.length) :
    CondRun.Attended ⟨state.run.started result, asleep⟩ := by
  refine ⟨hnodup, fun c hc => h.waiting_started result c (hsub hc), fun hsome => ?_⟩
  have hasleep : state.asleep ≠ [] := fun hnone =>
    hsome (List.eq_nil_of_subset_nil (hnone ▸ hsub))
  obtain ⟨hrunning, henough⟩ := h.enough hasleep
  have hmore := hcount hsome
  refine ⟨hshutdown.trans hrunning, ?_⟩
  show result.1.queue.count + asleep.length ≤ (state.run.workers ++ _).countP Worker.isIdle
  rw [List.countP_append]
  omega

/-- Every step keeps the tasks attended. -/
theorem step {following : CondRun Task} {label : CondLabel Task} (h : state.Attended)
    (hnext : state.next label = some following) : following.Attended := by
  cases label with
  | rouse w =>
      obtain ⟨hmem, heq⟩ := Option.ite_none_right_eq_some.mp hnext
      cases heq
      refine ⟨h.nodup.erase w, fun c hc => h.waiting c (List.mem_of_mem_erase hc), fun hsome => ?_⟩
      obtain ⟨hrunning, henough⟩ := h.enough (List.ne_nil_of_mem hmem)
      have hlength := List.length_erase_of_mem hmem
      refine ⟨hrunning, ?_⟩
      show state.run.pool.queue.count + (state.asleep.erase w).length ≤
        state.run.workers.countP Worker.isIdle
      omega
  | step label woken =>
      obtain ⟨run, hrun, hafter⟩ := Option.bind_eq_some_iff.mp hnext
      cases label with
      | addTask task memory created =>
          cases hrun
          obtain ⟨hshutdown, hcount⟩ :=
            add_task_counts state.run.pool task memory created state.run.workers.length
          by_cases hrefused : state.run.accepts (.addTask task memory created) = []
          · rw [if_pos hrefused] at hafter
            cases hafter
            refine h.adds hshutdown h.nodup (List.Subset.refl _) fun _ => ?_
            rw [hcount, accepts_nil.mp hrefused]
            exact Nat.le_refl _
          · rw [if_neg hrefused] at hafter
            obtain ⟨asleep, hsignal, heq⟩ := Option.map_eq_some_iff.mp hafter
            cases heq
            unfold condSignal at hsignal
            split at hsignal
            · cases hsignal
              exact h.adds hshutdown List.nodup_nil (List.nil_subset _) fun hne => absurd rfl hne
            · obtain ⟨hmem, heq⟩ := Option.ite_none_right_eq_some.mp hsignal
              cases heq
              refine h.adds hshutdown (h.nodup.erase woken) List.erase_subset fun _ => ?_
              have hlength := List.length_erase_of_mem hmem
              have hpos := List.length_pos_of_mem hmem
              have hle := Bool.toNat_le
                (threadPoolAddTask state.run.pool task memory created state.run.workers.length).1
              omega
      | readArg w =>
          cases hafter
          simp only [poolNext] at hrun
          split at hrun
          next hworker =>
            cases hrun
            exact h.readies hworker (by simp) rfl
          next => cases hrun
      | enter w =>
          cases hafter
          simp only [poolNext] at hrun
          split at hrun
          next hworker =>
            cases hrun
            refine h.moves hworker rfl (fun hmem => ?_) (worker_loop_ends _ _)
            obtain ⟨sleeper, hsleeper, hwaiting⟩ := h.waiting w hmem
            rw [hworker] at hsleeper
            cases hsleeper
            cases hwaiting
          next => cases hrun
      | wake w timedOut =>
          obtain ⟨hawake, heq⟩ := Option.ite_none_left_eq_some.mp hafter
          cases heq
          simp only [poolNext] at hrun
          split at hrun
          next hworker =>
            cases hrun
            exact h.moves hworker rfl hawake (worker_wake_ends _ _ timedOut)
          next => cases hrun
      | finish w =>
          cases hafter
          simp only [poolNext] at hrun
          split at hrun
          next hworker =>
            cases hrun
            exact h.readies hworker (by simp) rfl
          next => cases hrun
      | shutdown =>
          cases hafter
          exact ⟨List.nodup_nil, fun _ hc => absurd hc List.not_mem_nil,
            fun hne => absurd rfl hne⟩
      | join =>
          cases hafter
          simp only [poolNext] at hrun
          split at hrun
          next =>
            cases hrun
            exact ⟨h.nodup, h.waiting, h.enough⟩
          next => cases hrun

end CondRun.Attended

variable {state following : CondRun Task} {label : CondLabel Task} {labels : List (CondLabel Task)}

/-- The condition variable only restricts what the pool does. -/
theorem cond_next_pool (hnext : state.next label = some following) :
    (∃ w, label = .rouse w ∧ following.run = state.run) ∨
      ∃ step woken, label = .step step woken ∧ poolNext state.run step = some following.run := by
  cases label with
  | rouse w =>
      obtain ⟨-, heq⟩ := Option.ite_none_right_eq_some.mp hnext
      cases heq
      exact Or.inl ⟨w, rfl, rfl⟩
  | step label woken =>
      obtain ⟨run, hrun, hafter⟩ := Option.bind_eq_some_iff.mp hnext
      refine Or.inr ⟨label, woken, rfl, ?_⟩
      cases label with
      | addTask task memory created =>
          dsimp only at hafter
          split at hafter
          · cases hafter
            exact hrun
          · obtain ⟨asleep, -, heq⟩ := Option.map_eq_some_iff.mp hafter
            cases heq
            exact hrun
      | wake w timedOut =>
          obtain ⟨-, heq⟩ := Option.ite_none_left_eq_some.mp hafter
          cases heq
          exact hrun
      | readArg w | enter w | finish w | shutdown | join =>
          cases hafter
          exact hrun

/-- Every step is one of the pool, and keeps it sound. -/
theorem cond_next_sound (h : state.run.Sound) (hnext : state.next label = some following) :
    following.run.Sound := by
  rcases cond_next_pool hnext with ⟨_, -, heq⟩ | ⟨_, _, -, hstep⟩
  · exact heq ▸ h
  · exact h.step hstep

/-! ## Whole runs -/

/-- What holds of every state that is reached from the return of `thread_pool_create`. -/
theorem cond_run_attended {minThreads maxThreads : Nat} {memory : Option (Nat → Task)}
    {arrays : Option (Nat → Nat)} {created : Nat → Bool} {pool : Pool Task}
    (hcreate : threadPoolCreate minThreads maxThreads memory arrays created = some pool)
    {final : CondRun Task} (hrun : run CondRun.next (.start pool) labels = some final) :
    final.Attended ∧ final.run.Sound := by
  let inv (state : CondRun Task) : Prop := state.Attended ∧ state.run.Sound
  have hstep : ∀ state label following, inv state → CondRun.next state label = some following →
      inv following :=
    fun _ _ _ hinv hnext => ⟨hinv.1.step hnext, cond_next_sound hinv.2 hnext⟩
  have hstart : inv (.start pool) :=
    ⟨⟨List.nodup_nil, fun _ hc => absurd hc List.not_mem_nil, fun hne => absurd rfl hne⟩,
      start_sound hcreate⟩
  exact run_preserves hstep hstart hrun

/-- Throughout every run: after a shutdown no worker sleeps; while some worker sleeps, there are
no more tasks in the queue than workers that are awake and without a task; and before a shutdown,
a task in the queue finds a live worker that does not sleep. -/
theorem no_task_overslept (minThreads maxThreads : Nat) (memory : Option (Nat → Task))
    (arrays : Option (Nat → Nat)) (created : Nat → Bool) (pool : Pool Task)
    (hcreate : threadPoolCreate minThreads maxThreads memory arrays created = some pool)
    (labels : List (CondLabel Task)) (final : CondRun Task)
    (hrun : run CondRun.next (.start pool) labels = some final) :
    (final.run.pool.shutdown = true → final.asleep = []) ∧
      (final.asleep ≠ [] → final.run.pool.queue.count ≤ final.alert.length) ∧
      (final.run.pool.shutdown = false → final.run.pool.queue.count ≠ 0 →
        ∃ (w : Nat) (worker : Worker Task), final.run.workers[w]? = some worker ∧
          worker.phase.isExited = false ∧ w ∉ final.asleep) := by
  obtain ⟨hattended, hsound⟩ := cond_run_attended hcreate hrun
  have halert : final.asleep ≠ [] → final.run.pool.queue.count ≤ final.alert.length := by
    intro hsome
    have henough := (hattended.enough hsome).2
    have hsplit := count_le_elsewhere_add Worker.isIdle final.run.workers final.asleep
    rw [CondRun.alert]
    omega
  refine ⟨fun hshutdown => ?_, halert, fun hrunning hqueued => ?_⟩
  · by_contra hsome
    exact absurd ((hattended.enough hsome).1.symm.trans hshutdown) (by decide)
  · by_cases hnone : final.asleep = []
    · -- at least the minimum of workers is there, and all of them are awake
      have hmin := hsound.min_le hrunning
      have hpos := hsound.min_pos
      have hcounted := hsound.counted
      rw [length_live_slots] at hcounted
      obtain ⟨worker, hmem, hlive⟩ := List.countP_pos_iff.mp (by omega : 0 <
        final.run.workers.countP fun worker => !worker.phase.isExited)
      obtain ⟨w, hworker⟩ := List.mem_iff_getElem?.mp hmem
      exact ⟨w, worker, hworker, by simpa using hlive, by simp [hnone]⟩
    · have hle := halert hnone
      obtain ⟨w, hw⟩ := List.exists_mem_of_length_pos (by omega : 0 < final.alert.length)
      obtain ⟨⟨worker, hworker, hidle⟩, hawake⟩ := mem_elsewhere.mp hw
      refine ⟨w, worker, hworker, ?_, hawake⟩
      unfold Worker.isIdle at hidle
      cases hphase : worker.phase <;> simp_all [Phase.isIdle, Phase.isExited]

/-- Two workers sleep when a task is added; the signal wakes the second of them. -/
def signalSecond : List (CondLabel Nat) :=
  [.step (.addTask 1 none true) 0, .step (.addTask 2 none true) 0, .step (.readArg 0) 0,
    .step (.readArg 1) 0, .step (.enter 0) 0, .step (.enter 1) 0, .step (.finish 0) 0,
    .step (.finish 1) 0, .step (.enter 0) 0, .step (.enter 1) 0, .step (.addTask 3 none true) 1]

/-- The task that is queued has a worker that is awake. -/
theorem no_task_overslept_signal_second :
    ∃ final, run CondRun.next (.start smallPool) signalSecond = some final ∧
      final.asleep = [0] ∧ final.alert = [1] ∧ final.run.pool.queue.count ≤ final.alert.length :=
  ⟨_, rfl, rfl, rfl, (no_task_overslept 1 2 (some fun _ => 0) (some fun _ => 0) (fun _ => true)
    smallPool rfl signalSecond _ rfl).2.1 (by decide)⟩

/-! ## After a shutdown -/

/-- A step of a worker. -/
def PoolLabel.works : PoolLabel Task → Bool
  | .readArg _ | .enter _ | .wake _ _ | .finish _ => true
  | .addTask _ _ _ | .shutdown | .join => false

/-- A step of a worker. -/
def CondLabel.works : CondLabel Task → Bool
  | .step label _ => label.works
  | .rouse _ => false

/-- How many steps a worker has before it at most, once the pool is shut down. -/
def Phase.distance : Phase Task → Nat
  | .starting | .busy _ => 2
  | .ready | .waiting => 1
  | .exited => 0

/-- The steps that the workers of a pool that is shut down can still take. -/
def PoolRun.distance (run : PoolRun Task) : Nat :=
  (run.workers.map fun worker => worker.phase.distance).sum

/-- They are at most two for each worker. -/
theorem distance_le (run : PoolRun Task) : run.distance ≤ 2 * run.workers.length := by
  unfold PoolRun.distance
  induction run.workers with
  | nil => exact Nat.le_refl _
  | cons worker workers ih =>
      have hle : worker.phase.distance ≤ 2 := by
        cases worker.phase <;> simp [Phase.distance]
      simp only [List.map_cons, List.sum_cons, List.length_cons]
      omega

/-- After a shutdown every step of a worker brings the workers nearer to their end, and no other
step brings new ones. -/
theorem shut_down_distance {run following : PoolRun Task} {label : PoolLabel Task}
    (hshutdown : run.pool.shutdown = true) (hnext : poolNext run label = some following) :
    following.distance + label.works.toNat ≤ run.distance := by
  have hmove {w : Nat} {worker moved : Worker Task} (hworker : run.workers[w]? = some worker)
      (hlt : moved.phase.distance < worker.phase.distance) :
      ((run.workers.set w moved).map fun worker => worker.phase.distance).sum + 1 ≤
        run.distance :=
    sum_set_lt (fun worker : Worker Task => worker.phase.distance) hworker hlt
  cases label with
  | addTask task memory created =>
      cases hnext
      simp [PoolRun.distance, PoolRun.started, add_task_shut_down hshutdown, PoolLabel.works]
  | readArg w =>
      simp only [poolNext] at hnext
      split at hnext
      next hworker =>
        cases hnext
        exact hmove hworker Nat.one_lt_two
      next => cases hnext
  | enter w =>
      simp only [poolNext] at hnext
      split at hnext
      next index hworker =>
        cases hnext
        rw [worker_loop_shut_down hshutdown index]
        exact hmove hworker Nat.zero_lt_one
      next => cases hnext
  | wake w timedOut =>
      simp only [poolNext] at hnext
      split at hnext
      next index hworker =>
        cases hnext
        rw [worker_wake_shut_down hshutdown index timedOut]
        exact hmove hworker Nat.zero_lt_one
      next => cases hnext
  | finish w =>
      simp only [poolNext] at hnext
      split at hnext
      next hworker =>
        cases hnext
        exact hmove hworker Nat.one_lt_two
      next => cases hnext
  | shutdown =>
      cases hnext
      exact Nat.le_refl _
  | join =>
      simp only [poolNext] at hnext
      split at hnext
      next =>
        cases hnext
        exact Nat.le_refl _
      next => cases hnext

/-- In a pool that is shut down a step of a worker leaves one less, and no step leaves more. -/
theorem cond_next_shut_down (hshutdown : state.run.pool.shutdown = true)
    (hnext : state.next label = some following) :
    following.run.pool.shutdown = true ∧
      following.run.distance + label.works.toNat ≤ state.run.distance := by
  rcases cond_next_pool hnext with ⟨w, rfl, heq⟩ | ⟨step, woken, rfl, hstep⟩
  · rw [heq]
    exact ⟨hshutdown, Nat.le_refl _⟩
  · exact ⟨(shut_down_step hshutdown hstep).1, shut_down_distance hshutdown hstep⟩

/-- The steps of the workers after a shutdown are counted by the distance they go. -/
theorem shut_down_works {last : CondRun Task} (hshutdown : state.run.pool.shutdown = true)
    (hrun : run CondRun.next state labels = some last) :
    last.run.pool.shutdown = true ∧
      last.run.distance + labels.countP CondLabel.works ≤ state.run.distance := by
  induction labels generalizing state with
  | nil =>
      cases hrun
      exact ⟨hshutdown, Nat.le_refl _⟩
  | cons label labels ih =>
      obtain ⟨following, hnext, hrest⟩ := run_cons_eq_some.mp hrun
      obtain ⟨hstill, hstep⟩ := cond_next_shut_down hshutdown hnext
      obtain ⟨hlast, hle⟩ := ih hstill hrest
      refine ⟨hlast, ?_⟩
      rw [List.countP_cons]
      cases hworks : label.works <;> rw [hworks] at hstep <;>
        simp only [Bool.toNat_false, Bool.toNat_true, Bool.false_eq_true, if_false,
          if_true] at hstep ⊢ <;>
        omega

/-- A live worker can go on, unless it sleeps. -/
theorem worker_goes_on {w : Nat} {worker : Worker Task}
    (hworker : state.run.workers[w]? = some worker) (hlive : worker.phase.isExited = false)
    (hawake : w ∉ state.asleep) :
    ∃ label : CondLabel Task, label.works = true ∧ (state.next label).isSome = true := by
  obtain ⟨slot, index, phase⟩ := worker
  cases phase with
  | starting =>
      exact ⟨.step (.readArg w) 0, rfl, by simp [CondRun.next, poolNext, hworker]⟩
  | ready => exact ⟨.step (.enter w) 0, rfl, by simp [CondRun.next, poolNext, hworker]⟩
  | waiting =>
      exact ⟨.step (.wake w false) 0, rfl, by simp [CondRun.next, poolNext, hworker, hawake]⟩
  | busy task => exact ⟨.step (.finish w) 0, rfl, by simp [CondRun.next, poolNext, hworker]⟩
  | exited => cases hlive

/-- A step of the pool that calls `pthread_create` does so with success. -/
def CondRun.CreateSucceeds (state : CondRun Task) : CondLabel Task → Prop
  | .step label _ => ThreadPool.CreateSucceeds state.run label
  | .rouse _ => True

instance (state : CondRun Task) : DecidablePred state.CreateSucceeds
  | .step label _ => inferInstanceAs (Decidable (ThreadPool.CreateSucceeds state.run label))
  | .rouse _ => inferInstanceAs (Decidable True)

/-- A pool that is shut down starts no worker. -/
theorem create_succeeds_shut_down (hshutdown : state.run.pool.shutdown = true)
    (label : CondLabel Task) : state.CreateSucceeds label := by
  cases label with
  | rouse w => trivial
  | step label woken =>
      cases label with
      | addTask task memory created =>
          exact fun hcalls => absurd (hcalls.1.1.symm.trans hshutdown) (by decide)
      | _ => trivial

/-- The condition variable leaves the account of the handles as it is. -/
theorem cond_next_accountable (h : state.run.Accountable) (hcreates : state.CreateSucceeds label)
    (hnext : state.next label = some following) : following.run.Accountable := by
  rcases cond_next_pool hnext with ⟨w, -, heq⟩ | ⟨step, woken, rfl, hstep⟩
  · exact heq ▸ h
  · exact h.step hcreates hstep

/-- The account of the handles is in order in every state after the shutdown. -/
theorem shut_down_accountable {last : CondRun Task} (h : state.run.Accountable)
    (hshutdown : state.run.pool.shutdown = true)
    (hrun : run CondRun.next state labels = some last) : last.run.Accountable := by
  let inv (state : CondRun Task) : Prop :=
    state.run.Accountable ∧ state.run.pool.shutdown = true
  have hstep : ∀ state label following, inv state → CondRun.next state label = some following →
      inv following := fun state label following hinv hnext =>
    ⟨cond_next_accountable hinv.1 (create_succeeds_shut_down hinv.2 label) hnext,
      (cond_next_shut_down hinv.2 hnext).1⟩
  have hkept : inv last := run_preserves hstep ⟨h, hshutdown⟩ hrun
  exact hkept.1

/-- If no `pthread_create` fails, then from every state after the shutdown on, whatever happens: the
workers together make at most two steps for each of them; as long as one is live, some worker can go
on, with the return of its task if it executes one; and when all have ended, the next handle that
`thread_pool_destroy` joins is that of a thread which has ended and was not joined before. -/
theorem destroy_returns (minThreads maxThreads : Nat) (memory : Option (Nat → Task))
    (arrays : Option (Nat → Nat)) (created : Nat → Bool) (pool : Pool Task)
    (hcreate : threadPoolCreate minThreads maxThreads memory arrays created = some pool)
    (labels : List (CondLabel Task)) (final : CondRun Task)
    (hcreates : Throughout CondRun.next CondRun.CreateSucceeds (.start pool) labels)
    (hrun : run CondRun.next (.start pool) labels = some final)
    (hshutdown : final.run.pool.shutdown = true)
    (later : List (CondLabel Task)) (last : CondRun Task)
    (hlater : run CondRun.next final later = some last) :
    later.countP CondLabel.works ≤ 2 * final.run.workers.length ∧
      ((∃ worker ∈ last.run.workers, worker.phase.isExited = false) →
        ∃ label : CondLabel Task, label.works = true ∧ (last.next label).isSome = true) ∧
      ((∀ worker ∈ last.run.workers, worker.phase.isExited = true) →
        last.run.joined.length < last.run.pool.threadsCreated →
          (∃ thread < last.run.workers.length,
            last.run.pool.threads last.run.joined.length = some thread ∧
              some thread ∉ last.run.joined) ∧
            (last.next (.step .join 0)).isSome = true) := by
  obtain ⟨hlast, hworks⟩ := shut_down_works hshutdown hlater
  have hwhole : run CondRun.next (.start pool) (labels ++ later) = some last := by
    rw [run_append, hrun]
    exact hlater
  obtain ⟨hattended, -⟩ := cond_run_attended hcreate hwhole
  have hfinal : final.run.Accountable :=
    run_invariant (fun _ _ _ hinv hadmits hnext => cond_next_accountable hinv hadmits hnext)
      (start_accountable hcreate) hcreates hrun
  have haccount := shut_down_accountable hfinal hshutdown hlater
  refine ⟨?_, ?_, fun hended hleft => ⟨haccount.next_handle hleft, ?_⟩⟩
  · have hle := distance_le final.run
    omega
  · rintro ⟨worker, hmem, hlive⟩
    obtain ⟨w, hworker⟩ := List.mem_iff_getElem?.mp hmem
    refine worker_goes_on hworker hlive fun hasleep => ?_
    have hrunning := (hattended.enough (List.ne_nil_of_mem hasleep)).1
    exact absurd (hrunning.symm.trans hlast) (by decide)
  · have hready : last.run.MayReturn (last.run.pool.threads last.run.joined.length) :=
      fun thread _ worker hworker => hended worker (List.mem_of_getElem? hworker)
    simp [CondRun.next, poolNext, hlast, hleft, hready]

/-- The pool is shut down while one worker has a task and the other sleeps. -/
def shutDownAsleep : List (CondLabel Nat) :=
  [.step (.addTask 1 none true) 0, .step (.addTask 2 none true) 0, .step (.readArg 0) 0,
    .step (.readArg 1) 0, .step (.enter 0) 0, .step (.enter 1) 0, .step (.finish 1) 0,
    .step (.enter 1) 0, .step .shutdown 0]

/-- The sleeper wakes, the other finishes its task, both end, and the join is possible. -/
theorem destroy_returns_shut_down_asleep :
    ∃ final last, run CondRun.next (.start smallPool) shutDownAsleep = some final ∧
      run CondRun.next final [.step (.wake 1 false) 0, .step (.finish 0) 0, .step (.enter 0) 0] =
        some last ∧
      (last.next (.step .join 0)).isSome = true :=
  ⟨_, _, rfl, rfl, ((destroy_returns 1 2 (some fun _ => 0) (some fun _ => 0) (fun _ => true)
    smallPool rfl shutDownAsleep _ (by decide) rfl rfl
    [.step (.wake 1 false) 0, .step (.finish 0) 0, .step (.enter 0) 0] _ rfl).2.2
    (by decide) (by decide)).2⟩

end Emme.ThreadPool
