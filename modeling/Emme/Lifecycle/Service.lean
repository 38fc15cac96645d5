import Emme.Lifecycle.Drain
import Emme.ThreadPool.Delivery

/-!
# The server on its thread pool

The accept loop, the client tasks and the shutdown of `src/server.c` on the thread pool of
`src/thread_pool.c`: a task is the number of a connection, and a worker that takes it runs
`client_task`. The pool does what `Lifecycle.next` assumes of it (`each_task_run_once`), and no more
connections are lost than the drain has reported as forced (`lost_at_most_reported`).
-/

namespace Emme.Lifecycle

open Emme.IpLimiter Emme.Router Emme.ThreadPool Execution Threads

/-! ## The composition -/

/-- The server and the pool that its tasks run on. -/
structure Service where
  server : State
  pool : PoolRun Nat

/-- What may happen next: a step of the server that does not concern the pool; the call of
`thread_pool_add_task`; a step of the pool; a step of the task that a worker executes. -/
inductive ServiceLabel where
  | server (label : Label)
  | dispatch (memory : Option (Nat → Nat)) (created : Bool)
  | pool (label : PoolLabel Nat)
  | serve (w : Nat) (answers : Answers)

/-- The main thread is at the call of `thread_pool_add_task`. -/
def MainPoint.dispatches : MainPoint → Bool
  | .dispatching _ => true
  | _ => false

/-- The task has not begun. -/
def Task.isQueued (task : Task) : Bool := task.point = .queued

/-- The task that a worker executes. -/
def Service.taskOf (s : Service) (w : Nat) : Option Nat :=
  match s.pool.workers[w]? with
  | some ⟨_, _, .busy t⟩ => some t
  | _ => none

/-- `client_task` has come to its end. -/
def Service.Returned (s : Service) (w : Nat) : Prop :=
  ∃ t ∈ s.taskOf w, ∃ task ∈ s.server.tasks[t]?, task.point = .finished

instance (s : Service) (w : Nat) : Decidable (s.Returned w) :=
  inferInstanceAs (Decidable (∃ t ∈ s.taskOf w, ∃ task ∈ s.server.tasks[t]?, _ = _))

/-- A worker has taken a task, or none: it calls `client_task`. -/
def Service.begin (s : Service) (pool : PoolRun Nat) : List Nat → Option Service
  | [] => some { s with pool }
  | t :: _ => (next s.server (.task t {})).map fun server => { server, pool }

/-- One step. -/
def Service.next (s : Service) : ServiceLabel → Option Service
  | .server label =>
      match label with
      | .task _ _ => none
      | .main _ =>
          if s.server.main.dispatches then none
          else (Lifecycle.next s.server label).map fun server => { s with server }
      | .deliver _ | .handler _ _ =>
          (Lifecycle.next s.server label).map fun server => { s with server }
  | .dispatch memory created =>
      if s.server.main.dispatches then
        let label := .addTask s.server.tasks.length memory created
        (poolNext s.pool label).bind fun pool =>
          (Lifecycle.next s.server (.main { ok := s.pool.accepts label ≠ [] })).map fun server =>
            { server, pool }
      else none
  | .pool label =>
      match label with
      | .addTask _ _ _ => none
      | .readArg _ | .enter _ | .wake _ _ =>
          (poolNext s.pool label).bind fun pool => s.begin pool (s.pool.begins label)
      | .finish w =>
          if s.Returned w then (poolNext s.pool label).map fun pool => { s with pool } else none
      -- `thread_pool_destroy`, which `perform_shutdown` calls at its end
      | .shutdown | .join =>
          if s.server.main = .finished then
            (poolNext s.pool label).map fun pool => { s with pool }
          else none
  | .serve w answers =>
      match s.taskOf w with
      | some t => (Lifecycle.next s.server (.task t answers)).map fun server => { s with server }
      | none => none

/-- The server once `initialize_server` and `thread_pool_create` have returned. -/
def Service.start (limiter : Limiter) (timeoutSeconds : Int) (pool : Pool Nat) : Service where
  server := initializeServer limiter timeoutSeconds
  pool := .start pool

/-- The ring of the queue is not doubled while `front` is 0. -/
def Service.GrowsOffStart (s : Service) : ServiceLabel → Prop
  | .dispatch memory created =>
      s.pool.GrowsOffStart (.addTask s.server.tasks.length memory created)
  | _ => True

instance (s : Service) : DecidablePred s.GrowsOffStart
  | .dispatch memory created =>
      inferInstanceAs (Decidable
        (s.pool.GrowsOffStart (.addTask s.server.tasks.length memory created)))
  | .server _ | .pool _ | .serve _ _ => inferInstanceAs (Decidable True)

/-! ## What the steps of the server do to the tasks -/

variable {t w : Nat} {answers : Answers} {s : Service}

section ServerSteps

variable {s s' : State}

/-- A step of a task moves it off its point, and never back to the queue. -/
theorem next_task_cases (h : next s (.task t answers) = some s') :
    ∃ task point, s.tasks[t]? = some task ∧ task.point ≠ .finished ∧ point ≠ .queued ∧
      s'.tasks = s.tasks.set t { task with point } ∧ s'.main = s.main ∧
      s'.ctx.forced = s.ctx.forced := by
  simp only [next] at h
  split at h
  · next task ht =>
      obtain ⟨client, point⟩ := task
      cases point with
      | queued | serving | releasing | uncounting | loadingCount | publishing =>
          cases h
          refine ⟨_, _, ht, ?_, ?_, rfl, rfl, rfl⟩ <;> simp
      | starting =>
          cases h
          refine ⟨_, _, ht, ?_, ?_, rfl, rfl, rfl⟩
          · simp
          · cases answers.ok <;> simp
      | finished => cases h
  · cases h

/-- A task in the queue begins. -/
theorem next_task_begins {task : Task} (ht : s.tasks[t]? = some task)
    (hqueued : task.point = .queued) :
    next s (.task t {}) = some (s.gotoTask t task .starting) := by
  simp only [next, ht, stepTask, hqueued]

/-- The main thread leaves the tasks alone, except where it dispatches one. -/
theorem next_main_tasks (h : next s (.main answers) = some s') (hmain : s.main.dispatches = false) :
    s'.tasks = s.tasks := by
  simp only [next] at h
  cases hpoint : s.main with
  | dispatching client =>
      rw [hpoint] at hmain
      cases hmain
  | finished =>
      simp only [stepMain, hpoint] at h
      cases h
  | accepting | loadingState | checking =>
      simp only [stepMain, hpoint] at h
      split at h <;> cases h <;> rfl
  | allocating =>
      simp only [stepMain, hpoint] at h
      split at h
      · split at h <;> cases h
        rfl
      · cases h
        rfl
  | housekeeping =>
      simp only [stepMain, hpoint, Option.some.injEq] at h
      subst h
      cases answers.ok <;> rfl
  | _ =>
      simp only [stepMain, hpoint, Option.some.injEq] at h
      subst h
      rfl

/-- The main thread adds the task of the connection if the pool accepts it. -/
theorem next_main_dispatches (h : next s (.main answers) = some s')
    (hmain : s.main.dispatches = true) :
    ∃ client, s'.tasks = s.tasks ++ if answers.ok then [⟨client, .queued⟩] else [] := by
  simp only [next] at h
  cases hpoint : s.main with
  | dispatching client =>
      simp only [stepMain, hpoint] at h
      cases hok : answers.ok <;> rw [hok] at h <;> cases h
      · exact ⟨client, (List.append_nil _).symm⟩
      · exact ⟨client, rfl⟩
  | _ =>
      rw [hpoint] at hmain
      cases hmain

end ServerSteps

/-! ## One step -/

/-- How the tasks of the server are spread over the pool: those in the queue have not begun, and
each of the others is on one worker until its end. -/
structure Service.Linked (s : Service) : Prop where
  valid : s.pool.pool.queue.Valid
  queued : s.pool.pool.queue.contents = s.server.tasks.findIdxs Task.isQueued
  distinct : s.pool.executing.Nodup
  begun : ∀ t ∈ s.pool.executing,
    ∃ task, s.server.tasks[t]? = some task ∧ task.point ≠ .queued
  running : ∀ (t : Nat) (task : Task), s.server.tasks[t]? = some task →
    task.point ≠ .queued → task.point ≠ .finished → t ∈ s.pool.executing

/-- The pool accepts the task that is added, or nothing. -/
theorem accepts_add (pool : PoolRun Nat) (t : Nat) (memory : Option (Nat → Nat))
    (created : Bool) :
    pool.accepts (.addTask t memory created) =
      if decide (pool.accepts (.addTask t memory created) ≠ []) then [t] else [] := by
  simp only [PoolRun.accepts]
  split <;> simp

/-- A worker takes at most one task. -/
theorem begins_one (pool : PoolRun Nat) (label : PoolLabel Nat) (t : Nat) (rest : List Nat)
    (h : pool.begins label = t :: rest) : rest = [] := by
  have hphase (phase : Phase Nat) (h : phase.executing = t :: rest) : rest = [] := by
    cases phase <;> cases h
    rfl
  cases label with
  | enter w | wake w timedOut =>
      simp only [PoolRun.begins] at h
      cases hworker : pool.workers[w]? with
      | none =>
          rw [hworker] at h
          cases h
      | some worker =>
          rw [hworker] at h
          exact hphase _ h
  | _ => cases h

/-- A worker that executes a task is busy with it. -/
theorem task_of_eq (h : s.taskOf w = some t) :
    ∃ slot index, s.pool.workers[w]? = some ⟨slot, index, .busy t⟩ := by
  unfold Service.taskOf at h
  split at h
  · next slot index _ hworker =>
      cases h
      exact ⟨slot, index, hworker⟩
  · cases h

/-- The worker finishes the task that it executes. -/
theorem finishes_task (h : t ∈ s.taskOf w) : s.pool.finishes (.finish w) = [t] := by
  obtain ⟨slot, index, hworker⟩ := task_of_eq h
  simp only [PoolRun.finishes, hworker, Option.elim_some, Phase.executing]

/-- The task of a worker is one of those that are executed. -/
theorem task_of_executing (h : s.taskOf w = some t) : t ∈ s.pool.executing := by
  obtain ⟨slot, index, hworker⟩ := task_of_eq h
  exact mem_inventory.mpr ⟨w, _, hworker, List.mem_singleton_self t⟩

namespace Service.Linked

variable {s : Service}

variable {s' : Service} {t : Nat} {task : Task} {point : TaskPoint} {pool : PoolRun Nat}

/-- The tasks, the queue and the workers' tasks stay as they are. -/
theorem keeps (h : s.Linked) (htasks : s'.server.tasks = s.server.tasks)
    (hvalid : s'.pool.pool.queue.Valid)
    (hqueue : s'.pool.pool.queue.contents = s.pool.pool.queue.contents)
    (hexecuting : s'.pool.executing.Perm s.pool.executing) : s'.Linked where
  valid := hvalid
  queued := by rw [hqueue, htasks, h.queued]
  distinct := hexecuting.nodup_iff.mpr h.distinct
  begun t ht := by
    rw [htasks]
    exact h.begun t (hexecuting.mem_iff.mp ht)
  running t task ht hbegun hrunning := by
    rw [htasks] at ht
    exact hexecuting.mem_iff.mpr (h.running t task ht hbegun hrunning)

/-- A connection is dispatched, or the pool refuses it. -/
theorem dispatches (h : s.Linked) {client : Client} {accepted : Bool}
    (hvalid : s'.pool.pool.queue.Valid)
    (hqueue : s'.pool.pool.queue.contents = s.pool.pool.queue.contents ++
      if accepted then [s.server.tasks.length] else [])
    (htasks : s'.server.tasks = s.server.tasks ++ if accepted then [⟨client, .queued⟩] else [])
    (hexecuting : s'.pool.executing = s.pool.executing) : s'.Linked := by
  cases accepted with
  | false =>
      simp only [Bool.false_eq_true, if_false, List.append_nil] at hqueue htasks
      exact ⟨hvalid, by rw [hqueue, htasks, h.queued], hexecuting ▸ h.distinct,
        by rw [hexecuting, htasks]; exact h.begun, by rw [hexecuting, htasks]; exact h.running⟩
  | true =>
      simp only [if_true] at hqueue htasks
      refine ⟨hvalid, ?_, hexecuting ▸ h.distinct, ?_, ?_⟩
      · rw [hqueue, htasks, h.queued, List.findIdxs_append]
        simp [List.findIdxs_cons, Task.isQueued]
      · rw [hexecuting, htasks]
        intro t ht
        obtain ⟨task, htask, hbegun⟩ := h.begun t ht
        have hlt := (List.getElem?_eq_some_iff.mp htask).1
        exact ⟨task, by rw [List.getElem?_append_left hlt, htask], hbegun⟩
      · rw [hexecuting, htasks]
        intro t task htask hbegun hrunning
        rcases get_concat htask with ⟨-, rfl⟩ | htask
        · exact absurd rfl hbegun
        · exact h.running t task htask hbegun hrunning

/-- A task that has begun is not in the queue any more, wherever it goes. -/
theorem begun_set (h : s.Linked) (htask : s.server.tasks[t]? = some task)
    (hpoint : point ≠ .queued) {u : Nat} (hu : u = t ∨ u ∈ s.pool.executing) :
    ∃ other, (s.server.tasks.set t { task with point })[u]? = some other ∧
      other.point ≠ .queued := by
  by_cases heq : u = t
  · subst heq
    exact ⟨_, List.getElem?_set_self (List.getElem?_eq_some_iff.mp htask).1, hpoint⟩
  · rw [List.getElem?_set_ne (Ne.symm heq)]
    exact h.begun u (hu.resolve_left heq)

/-- After a step of a task those that run are it and those that the pool executes. -/
theorem running_set (h : s.Linked) {u : Nat} {other : Task}
    (hother : (s.server.tasks.set t { task with point })[u]? = some other)
    (hbegun : other.point ≠ .queued) (hrunning : other.point ≠ .finished) :
    u = t ∨ u ∈ s.pool.executing := by
  rcases get_set hother with ⟨heq, -⟩ | ⟨-, hother⟩
  · exact Or.inl heq
  · exact Or.inr (h.running u other hother hbegun hrunning)

/-- A worker takes the oldest task and begins it. -/
theorem takes (h : s.Linked) (hvalid : pool.pool.queue.Valid)
    (hqueue : s.pool.pool.queue.contents = t :: pool.pool.queue.contents)
    (hexecuting : pool.executing.Perm (t :: s.pool.executing)) :
    ∃ task, s.server.tasks[t]? = some task ∧ task.point = .queued ∧
      Service.Linked { server := s.server.gotoTask t task .starting, pool } := by
  have hfirst : s.server.tasks.findIdxs Task.isQueued = (0 + t) :: pool.pool.queue.contents := by
    rw [← h.queued, hqueue, Nat.zero_add]
  have hmem : t ∈ s.server.tasks.findIdxs Task.isQueued := by
    rw [hfirst, Nat.zero_add]
    exact List.mem_cons_self
  obtain ⟨hlt, hqueued⟩ := List.mem_findIdxs_iff_exists_getElem_pos.mp hmem
  have hget : s.server.tasks[t]? = some s.server.tasks[t] := List.getElem?_eq_getElem hlt
  refine ⟨s.server.tasks[t], hget, of_decide_eq_true hqueued, hvalid, ?_, ?_, ?_, ?_⟩
  · exact (places_set_first hfirst rfl).symm
  · refine hexecuting.nodup_iff.mpr (List.nodup_cons.mpr ⟨fun hon => ?_, h.distinct⟩)
    obtain ⟨task, htask, hbegun⟩ := h.begun t hon
    rw [hget] at htask
    cases htask
    exact hbegun (of_decide_eq_true hqueued)
  · intro u hu
    exact h.begun_set hget (by simp) (List.mem_cons.mp (hexecuting.mem_iff.mp hu))
  · intro u other hother hbegun hrunning
    exact hexecuting.mem_iff.mpr (List.mem_cons.mpr (h.running_set hother hbegun hrunning))

/-- A task on a worker makes a step. -/
theorem serves (h : s.Linked) {server : State} (hon : t ∈ s.pool.executing)
    (htask : s.server.tasks[t]? = some task) (hpoint : point ≠ .queued)
    (htasks : server.tasks = s.server.tasks.set t { task with point }) :
    Service.Linked { s with server } := by
  obtain ⟨same, hsame, hbegun⟩ := h.begun t hon
  obtain rfl : same = task := Option.some.inj (hsame.symm.trans htask)
  have hplaces : server.tasks.findIdxs Task.isQueued = s.server.tasks.findIdxs Task.isQueued := by
    rw [htasks]
    refine places_set_same 0 htask ?_
    simp [Task.isQueued, hpoint, hbegun]
  refine ⟨h.valid, h.queued.trans hplaces.symm, h.distinct, ?_, ?_⟩
  · intro u hu
    show ∃ other, server.tasks[u]? = some other ∧ other.point ≠ .queued
    rw [htasks]
    exact h.begun_set htask hpoint (Or.inr hu)
  · intro u other hother hbegun hrunning
    replace hother : server.tasks[u]? = some other := hother
    rw [htasks] at hother
    rcases h.running_set hother hbegun hrunning with rfl | hu
    · exact hon
    · exact hu

/-- A worker gives its task back when it has come to its end. -/
theorem gives_back (h : s.Linked) (htask : s.server.tasks[t]? = some task)
    (hfinished : task.point = .finished) (hvalid : pool.pool.queue.Valid)
    (hqueue : pool.pool.queue.contents = s.pool.pool.queue.contents)
    (hexecuting : (t :: pool.executing).Perm s.pool.executing) :
    Service.Linked { s with pool } := by
  obtain ⟨-, hdistinct⟩ := List.nodup_cons.mp (hexecuting.nodup_iff.mpr h.distinct)
  refine ⟨hvalid, hqueue.trans h.queued, hdistinct, ?_, ?_⟩
  · exact fun u hu => h.begun u (hexecuting.mem_iff.mp (List.mem_cons_of_mem t hu))
  · intro u other hother hbegun hrunning
    have hu := hexecuting.mem_iff.mpr (h.running u other hother hbegun hrunning)
    rcases List.mem_cons.mp hu with rfl | hu
    · rw [htask] at hother
      cases hother
      exact absurd hfinished hrunning
    · exact hu

/-- A worker's section of code, after which it calls `client_task` if it has taken a task. -/
theorem begins (h : s.Linked) {label : PoolLabel Nat} (haccepts : s.pool.accepts label = [])
    (hfinishes : s.pool.finishes label = []) (hmove : TasksMove s.pool label pool)
    (hbegin : s.begin pool (s.pool.begins label) = some s') : s'.Linked := by
  obtain ⟨hvalid, hqueue, hworkers⟩ := hmove
  rw [haccepts, List.append_nil] at hqueue
  rw [hfinishes, List.nil_append] at hworkers
  cases hbegins : s.pool.begins label with
  | nil =>
      rw [hbegins] at hqueue hworkers hbegin
      cases hbegin
      exact h.keeps rfl hvalid hqueue.symm hworkers
  | cons t rest =>
      obtain rfl := begins_one s.pool label t rest hbegins
      rw [hbegins] at hqueue hworkers hbegin
      obtain ⟨task, htask, hqueued, hlinked⟩ := h.takes hvalid hqueue hworkers
      rw [Service.begin, next_task_begins htask hqueued] at hbegin
      cases hbegin
      exact hlinked

/-- Every step of the service keeps server and pool linked. -/
theorem step {label : ServiceLabel} (h : s.Linked) (hgrow : s.GrowsOffStart label)
    (hnext : s.next label = some s') : s'.Linked := by
  cases label with
  | server label =>
      have hkeep {server : State} (htasks : server.tasks = s.server.tasks) :
          Service.Linked { s with server } := h.keeps htasks h.valid rfl (List.Perm.refl _)
      cases label with
      | task t answers => cases hnext
      | deliver sig =>
          cases hnext
          exact hkeep rfl
      | main answers =>
          obtain ⟨hmain, hmap⟩ := Option.ite_none_left_eq_some.mp hnext
          obtain ⟨server, hserver, rfl⟩ := Option.map_eq_some_iff.mp hmap
          exact hkeep (next_main_tasks hserver (by simpa using hmain))
      | handler i answers =>
          obtain ⟨server, hserver, rfl⟩ := Option.map_eq_some_iff.mp hnext
          simp only [Lifecycle.next] at hserver
          split at hserver
          · exact hkeep (step_handler_keeps hserver).2.2.1
          · cases hserver
  | dispatch memory created =>
      obtain ⟨hmain, hbind⟩ := Option.ite_none_right_eq_some.mp hnext
      obtain ⟨pool, hpool, hmap⟩ := Option.bind_eq_some_iff.mp hbind
      obtain ⟨server, hserver, rfl⟩ := Option.map_eq_some_iff.mp hmap
      obtain ⟨hvalid, hqueue, -⟩ := tasks_move h.valid hpool hgrow
      obtain ⟨client, htasks⟩ := next_main_dispatches hserver hmain
      have haccepts := accepts_add s.pool s.server.tasks.length memory created
      rw [haccepts] at hqueue
      refine h.dispatches hvalid hqueue.symm htasks ?_
      cases hpool
      exact executing_started _ _
  | pool label =>
      cases label with
      | addTask task memory created => cases hnext
      | readArg w | enter w | wake w timedOut =>
          obtain ⟨pool, hpool, hbegin⟩ := Option.bind_eq_some_iff.mp hnext
          exact h.begins rfl rfl (tasks_move h.valid hpool trivial) hbegin
      | finish w =>
          obtain ⟨hreturned, hmap⟩ := Option.ite_none_right_eq_some.mp hnext
          obtain ⟨pool, hpool, rfl⟩ := Option.map_eq_some_iff.mp hmap
          obtain ⟨hvalid, hqueue, hworkers⟩ := tasks_move h.valid hpool trivial
          obtain ⟨t, ht, task, htask, hfinished⟩ := hreturned
          rw [finishes_task ht] at hworkers
          exact h.gives_back htask hfinished hvalid
            (hqueue.symm.trans (List.append_nil _)) hworkers
      | shutdown | join =>
          obtain ⟨-, hmap⟩ := Option.ite_none_right_eq_some.mp hnext
          obtain ⟨pool, hpool, rfl⟩ := Option.map_eq_some_iff.mp hmap
          obtain ⟨hvalid, hqueue, hworkers⟩ := tasks_move h.valid hpool trivial
          exact h.keeps rfl hvalid (hqueue.symm.trans (List.append_nil _)) hworkers
  | serve w answers =>
      simp only [Service.next] at hnext
      split at hnext
      · next t ht =>
          obtain ⟨server, hserver, rfl⟩ := Option.map_eq_some_iff.mp hnext
          obtain ⟨task, point, htask, -, hpoint, htasks, -⟩ := next_task_cases hserver
          exact h.serves (task_of_executing ht) htask hpoint htasks
      · cases hnext

end Service.Linked

/-- The steps by what they do: one of the server, one of both, one of the pool, with which a task
may begin, or one of a task. -/
inductive ServiceStep (s : Service) : ServiceLabel → Service → Prop
  | server {label : Label} {server : State} (hserver : Lifecycle.next s.server label = some server)
      (htask : ∀ t answers, label ≠ .task t answers) :
      ServiceStep s (.server label) { s with server }
  | dispatch {memory : Option (Nat → Nat)} {created : Bool} {pool : PoolRun Nat} {server : State}
      {answers : Answers} (hmain : s.server.main.dispatches = true)
      (hpool : poolNext s.pool (.addTask s.server.tasks.length memory created) = some pool)
      (hserver : Lifecycle.next s.server (.main answers) = some server) :
      ServiceStep s (.dispatch memory created) ⟨server, pool⟩
  | pool {label : PoolLabel Nat} {pool : PoolRun Nat} {s' : Service}
      (hadd : ∀ task memory created, label ≠ .addTask task memory created)
      (hpool : poolNext s.pool label = some pool)
      (hbegin : s.begin pool (s.pool.begins label) = some s')
      (hdestroy : label = .shutdown → s.server.main = .finished) :
      ServiceStep s (.pool label) s'
  | serve {w t : Nat} {answers : Answers} {server : State} (ht : s.taskOf w = some t)
      (hserver : Lifecycle.next s.server (.task t answers) = some server) :
      ServiceStep s (.serve w answers) { s with server }

section Steps

variable {s s' : Service} {label : ServiceLabel}

/-- Every step is one of these. -/
theorem service_step_of_next (hnext : s.next label = some s') : ServiceStep s label s' := by
  cases label with
  | server label =>
      cases label with
      | task t answers => cases hnext
      | main answers =>
          obtain ⟨-, hmap⟩ := Option.ite_none_left_eq_some.mp hnext
          obtain ⟨server, hserver, rfl⟩ := Option.map_eq_some_iff.mp hmap
          exact .server hserver (by simp)
      | deliver sig =>
          cases hnext
          exact .server rfl (by simp)
      | handler i answers =>
          obtain ⟨server, hserver, rfl⟩ := Option.map_eq_some_iff.mp hnext
          exact .server hserver (by simp)
  | dispatch memory created =>
      obtain ⟨hmain, hbind⟩ := Option.ite_none_right_eq_some.mp hnext
      obtain ⟨pool, hpool, hmap⟩ := Option.bind_eq_some_iff.mp hbind
      obtain ⟨server, hserver, rfl⟩ := Option.map_eq_some_iff.mp hmap
      exact .dispatch hmain hpool hserver
  | pool label =>
      cases label with
      | addTask task memory created => cases hnext
      | readArg w | enter w | wake w timedOut =>
          obtain ⟨pool, hpool, hbegin⟩ := Option.bind_eq_some_iff.mp hnext
          exact .pool (by simp) hpool hbegin (by simp)
      | finish w | shutdown | join =>
          obtain ⟨hguard, hmap⟩ := Option.ite_none_right_eq_some.mp hnext
          obtain ⟨pool, hpool, rfl⟩ := Option.map_eq_some_iff.mp hmap
          exact .pool (by simp) hpool rfl (by simp [hguard])
  | serve w answers =>
      simp only [Service.next] at hnext
      split at hnext
      · next t ht =>
          obtain ⟨server, hserver, rfl⟩ := Option.map_eq_some_iff.mp hnext
          exact .serve ht hserver
      · cases hnext

/-- What becomes of the two parts when a worker has taken these tasks. -/
theorem begin_cases {pool : PoolRun Nat} {tasks : List Nat} (h : s.begin pool tasks = some s') :
    s'.pool = pool ∧
      (tasks = [] ∧ s'.server = s.server ∨
        ∃ t, t ∈ tasks ∧ Lifecycle.next s.server (.task t {}) = some s'.server) := by
  cases tasks with
  | nil =>
      cases h
      exact ⟨rfl, Or.inl ⟨rfl, rfl⟩⟩
  | cons t tasks =>
      obtain ⟨server, hserver, rfl⟩ := Option.map_eq_some_iff.mp h
      exact ⟨rfl, Or.inr ⟨t, List.mem_cons_self, hserver⟩⟩

/-- The pool only decides which steps of the server are taken. -/
theorem service_server_step (hnext : s.next label = some s') :
    s'.server = s.server ∨ ∃ step, Lifecycle.next s.server step = some s'.server := by
  cases service_step_of_next hnext with
  | server hserver htask => exact Or.inr ⟨_, hserver⟩
  | dispatch hmain hpool hserver => exact Or.inr ⟨_, hserver⟩
  | pool hadd hpool hbegin hdestroy =>
      rcases (begin_cases hbegin).2 with ⟨-, heq⟩ | ⟨t, -, hserver⟩
      · exact Or.inl heq
      · exact Or.inr ⟨_, hserver⟩
  | serve ht hserver => exact Or.inr ⟨_, hserver⟩

end Steps

/-! ## What the drain reports -/

/-- No more requests are in flight than the drain has counted behind its loop. -/
def State.Reported (s : State) : Prop :=
  match s.main with
  | .storingCompleted _ remaining => s.outstanding.length ≤ remaining.toNat
  | .storingForced _ remaining => s.outstanding.length ≤ remaining.toNat
  | .reporting _ => s.outstanding.length ≤ s.ctx.forced.toNat
  | _ => True

section Reported

variable {s s' : State}

/-- Only a main thread that is about to count a request adds one. -/
theorem outstanding_le (hmove : RequestMove s s')
    (hhand : ∀ client, s.main.hand ≠ .allocated client) :
    s'.outstanding.length ≤ s.outstanding.length := by
  cases hmove with
  | keep hbook hheld _ => exact hheld.length_eq.ge
  | count client hbook hheld hhand' _ _ => exact absurd hhand' (hhand client)
  | uncount client hbook hheld _ =>
      rw [hheld.length_eq]
      exact Nat.le_succ _

/-- A step of another thread: it leaves the main thread and `forced` alone. -/
theorem reported_of_same (h : s.Reported) (hmain : s'.main = s.main)
    (hforced : s'.ctx.forced = s.ctx.forced) (hmove : RequestMove s s') : s'.Reported := by
  unfold State.Reported at h ⊢
  rw [hmain, hforced]
  cases hpoint : s.main with
  | storingCompleted | storingForced | reporting =>
      have hle := outstanding_le hmove (by simp [hpoint, MainPoint.hand])
      rw [hpoint] at h
      exact hle.trans h
  | _ => trivial

/-- The handler leaves `forced` alone. -/
theorem handler_forced {i : Nat} {handler : Handler}
    (h : stepHandler s i handler answers = some s') : s'.ctx.forced = s.ctx.forced := by
  obtain ⟨sig, point⟩ := handler
  cases point with
  | loadingState =>
      simp only [stepHandler] at h
      split at h
      · cases h
        rfl
      · cases sig <;> cases h <;> rfl
  | finished => cases h
  | _ =>
      cases h
      rfl

/-- Before the drain has counted there is nothing to compare. -/
theorem reported_of_not_reports (h : s.main.reports = false) : s.Reported := by
  rw [State.Reported]
  cases hmain : s.main with
  | storingCompleted | storingForced | reporting =>
      rw [hmain] at h
      cases h
  | _ => trivial

/-- A step of the main thread: no request is counted during the drain. -/
theorem main_reported (hrequests : RequestAccount s) (h : s.Reported)
    (hstep : stepMain s answers = some s') : s'.Reported := by
  have hmove := (step_main_moves hstep).2
  cases hdrains : s.main.drains with
  | false =>
      refine reported_of_not_reports ?_
      by_cases hdrains' : s'.main.drains = true
      · -- the drain begins with its loop
        obtain ⟨hmain, hstate⟩ := ((step_main_enters hstep).2 hdrains').resolve_left
          (by simp [hdrains])
        simp only [stepMain, hmain, hstate, if_true, Option.some.injEq] at hstep
        subst hstep
        rfl
      · exact reports_of_not_drains (by simpa using hdrains')
  | true =>
      cases hpoint : s.main with
      | draining | readingClock =>
          simp only [stepMain, hpoint, Option.some.injEq] at hstep
          subst hstep
          refine reported_of_not_reports ?_
          rw [State.goto]
          split <;> rfl
      | forcing | loadingPeak | reporting =>
          simp only [stepMain, hpoint, Option.some.injEq] at hstep
          subst hstep
          trivial
      | loadingRemaining peak =>
          have hle := outstanding_le hmove (by simp [hpoint, MainPoint.hand])
          simp only [stepMain, hpoint, Option.some.injEq] at hstep
          rw [← hrequests.counter] at hle
          subst hstep
          exact hle
      | storingCompleted peak remaining | storingForced peak remaining =>
          have hle := outstanding_le hmove (by simp [hpoint, MainPoint.hand])
          simp only [stepMain, hpoint, Option.some.injEq] at hstep
          rw [State.Reported, hpoint] at h
          subst hstep
          exact hle.trans h
      | _ =>
          rw [hpoint] at hdrains
          cases hdrains

/-- Every step keeps the requests within what the drain has counted. -/
theorem next_reported {label : Label} (hrequests : RequestAccount s) (h : s.Reported)
    (hnext : next s label = some s') : s'.Reported := by
  have hmove := (next_moves hnext).2
  cases label with
  | deliver sig =>
      cases hnext
      exact reported_of_same h rfl rfl hmove
  | main answers => exact main_reported hrequests h hnext
  | task t answers =>
      obtain ⟨_, _, -, -, -, -, hmain, hforced⟩ := next_task_cases hnext
      exact reported_of_same h hmain hforced hmove
  | handler i answers =>
      simp only [next] at hnext
      split at hnext
      · exact reported_of_same h (step_handler_keeps hnext).2.2.2 (handler_forced hnext) hmove
      · cases hnext

/-- The drain is over, up to its report. -/
def MainPoint.closing : MainPoint → Bool
  | .reporting _ => true
  | .finished => true
  | _ => false

/-- Behind the drain no task is added to those that have not begun. -/
theorem next_closing {label : Label} (hclosing : s.main.closing = true)
    (hnext : next s label = some s') :
    s'.main.closing = true ∧ s'.tasks.countP Task.isQueued ≤ s.tasks.countP Task.isQueued := by
  cases label with
  | deliver sig =>
      cases hnext
      exact ⟨hclosing, Nat.le_refl _⟩
  | main answers =>
      simp only [next] at hnext
      cases hpoint : s.main with
      | reporting peak =>
          simp only [stepMain, hpoint, Option.some.injEq] at hnext
          subst hnext
          exact ⟨rfl, Nat.le_refl _⟩
      | finished =>
          simp only [stepMain, hpoint] at hnext
          cases hnext
      | _ =>
          rw [hpoint] at hclosing
          cases hclosing
  | task t answers =>
      obtain ⟨task, point, htask, -, hpoint, htasks, hmain, -⟩ := next_task_cases hnext
      have hcount := count_set_add Task.isQueued htask { task with point }
      have hnone : Task.isQueued { task with point } = false := by simp [Task.isQueued, hpoint]
      rw [hnone, Bool.toNat_false] at hcount
      rw [hmain, htasks]
      exact ⟨hclosing, by omega⟩
  | handler i answers =>
      simp only [next] at hnext
      split at hnext
      · obtain ⟨-, -, htasks, hmain⟩ := step_handler_keeps hnext
        rw [hmain, htasks]
        exact ⟨hclosing, Nat.le_refl _⟩
      · cases hnext

/-- A main thread that has left the loop dispatches nothing. -/
theorem closing_not_dispatches (h : s.main.closing = true) : s.main.dispatches = false := by
  cases hpoint : s.main with
  | dispatching =>
      rw [hpoint] at h
      cases h
  | _ => rfl

end Reported

/-- Behind the drain the tasks and the pool stay linked, and no more tasks wait than before. -/
theorem service_closing_step {s' : Service} {label : ServiceLabel} (h : s.Linked)
    (hclosing : s.server.main.closing = true) (hnext : s.next label = some s') :
    s'.Linked ∧ s'.server.main.closing = true ∧
      s'.server.tasks.countP Task.isQueued ≤ s.server.tasks.countP Task.isQueued := by
  have hgrow : s.GrowsOffStart label := by
    cases label with
    | dispatch memory created =>
        obtain ⟨hmain, -⟩ := Option.ite_none_right_eq_some.mp hnext
        rw [closing_not_dispatches hclosing] at hmain
        cases hmain
    | _ => trivial
  refine ⟨h.step hgrow hnext, ?_⟩
  rcases service_server_step hnext with heq | ⟨step, hstep⟩
  · rw [heq]
    exact ⟨hclosing, Nat.le_refl _⟩
  · exact next_closing hclosing hstep

/-! ## Whole runs -/

/-- At the start nothing is queued and nothing runs. -/
theorem service_start_linked {minThreads maxThreads : Nat} {memory : Option (Nat → Nat)}
    {arrays : Option (Nat → Nat)} {created : Nat → Bool} {pool : Pool Nat}
    (hcreate : threadPoolCreate minThreads maxThreads memory arrays created = some pool)
    (limiter : Limiter) (timeout : Int) : (Service.start limiter timeout pool).Linked := by
  obtain ⟨hvalid, hempty⟩ := task_queue_init_valid (create_queue hcreate)
  have hnone : (Service.start limiter timeout pool).pool.executing = [] := executing_start pool
  refine ⟨hvalid, hempty, ?_, ?_, ?_⟩
  · rw [hnone]
    exact List.nodup_nil
  · rw [hnone]
    exact fun t ht => absurd ht List.not_mem_nil
  · intro t task ht
    cases ht

/-- The run of the server that a run on the pool goes through. -/
theorem service_projects {start final : Service} {labels : List ServiceLabel}
    (hrun : run Service.next start labels = some final) :
    ∃ steps, run Lifecycle.next start.server steps = some final.server := by
  induction labels generalizing start with
  | nil =>
      cases hrun
      exact ⟨[], rfl⟩
  | cons label labels ih =>
      obtain ⟨following, hnext, hrest⟩ := run_cons_eq_some.mp hrun
      obtain ⟨steps, hsteps⟩ := ih hrest
      rcases service_server_step hnext with heq | ⟨step, hstep⟩
      · exact ⟨steps, heq ▸ hsteps⟩
      · exact ⟨step :: steps, run_cons_eq_some.mpr ⟨_, hstep, hsteps⟩⟩

section Runs

variable {fresh : Limiter} (timeout : Int) {minThreads maxThreads : Nat}
  {memory : Option (Nat → Nat)} {arrays : Option (Nat → Nat)} {created : Nat → Bool}
  {pool : Pool Nat}
  (hcreate : threadPoolCreate minThreads maxThreads memory arrays created = some pool)
  {labels : List ServiceLabel}
  (hgrow : Throughout Service.next Service.GrowsOffStart (.start fresh timeout pool) labels)

include hcreate hgrow in
/-- For every interleaving in which the ring of the queue is not doubled while `front` is 0: the
server goes through a run of its own, in which the tasks in the queue are those that have not begun,
in the order of the connections, no task is on two workers, only tasks that have begun are on one,
and those until they end. -/
theorem each_task_run_once {final : Service}
    (hrun : run Service.next (.start fresh timeout pool) labels = some final) :
    (∃ steps, run Lifecycle.next (initializeServer fresh timeout) steps = some final.server) ∧
      final.pool.pool.queue.contents = final.server.tasks.findIdxs Task.isQueued ∧
      final.pool.executing.Nodup ∧
      (∀ t ∈ final.pool.executing,
        ∃ task, final.server.tasks[t]? = some task ∧ task.point ≠ .queued) ∧
      ∀ (t : Nat) (task : Task), final.server.tasks[t]? = some task →
        task.point ≠ .queued → task.point ≠ .finished → t ∈ final.pool.executing := by
  have hlinked : final.Linked :=
    run_invariant (fun _ _ _ hinv hadmits hnext => hinv.step hadmits hnext)
      (service_start_linked hcreate fresh timeout) hgrow hrun
  exact ⟨service_projects hrun, hlinked.queued, hlinked.distinct, hlinked.begun, hlinked.running⟩

/-- Two connections are dispatched. The first is on a worker, the second waits. -/
def oneServedOneQueued : List ServiceLabel :=
  let accept : List ServiceLabel :=
    [.server (.main {}), .server (.main { ok := false }),
      .server (.main { accept := .client 7 }), .server (.main {}), .server (.main { ns := 1 }),
      .server (.main {}), .server (.main {}), .server (.main {}), .server (.main {}),
      .server (.main {}), .server (.main {}), .dispatch none true]
  accept ++ accept ++ [.pool (.readArg 0), .pool (.enter 0), .serve 0 {}]

/-- The pool executes the first task and has the second in its queue. -/
theorem one_served_one_queued :
    ∃ fresh, ipLimiterInit 2 0 = some fresh ∧
      ∃ final, run Service.next (.start fresh 30 smallPool) oneServedOneQueued = some final ∧
        final.pool.executing = [0] ∧ final.pool.pool.queue.contents = [1] ∧
        final.pool.pool.queue.contents = final.server.tasks.findIdxs Task.isQueued := by
  obtain ⟨fresh, hinit⟩ : ∃ fresh, ipLimiterInit 2 0 = some fresh := ⟨_, rfl⟩
  have hgrow : Throughout Service.next Service.GrowsOffStart (.start fresh 30 smallPool)
      oneServedOneQueued := by
    cases hinit
    decide +kernel
  obtain ⟨final, hrun, hexecuting, hqueue⟩ :
      ∃ final, run Service.next (.start fresh 30 smallPool) oneServedOneQueued = some final ∧
        (final.pool.executing = [0] ∧ final.pool.pool.queue.contents = [1]) := by
    cases hinit
    exact exists_final (by decide +kernel)
  have hcreate : threadPoolCreate 1 2 (some fun _ => 0) (some fun _ => 0) (fun _ => true) =
      some smallPool := rfl
  exact ⟨fresh, hinit, final, hrun, hexecuting, hqueue,
    (each_task_run_once 30 hcreate hgrow hrun).2.1⟩

include hcreate hgrow in
/-- For every such interleaving up to the report of the drain, and every continuation of it: at the
report no more tasks are unfinished than it gives as forced, and no more are left in the queue at
any time later, when the pool is destroyed and they are lost. -/
theorem lost_at_most_reported {reported : Service} {peak : UInt64}
    (hrun : run Service.next (.start fresh timeout pool) labels = some reported)
    (hmain : reported.server.main = .reporting peak) {later : List ServiceLabel} {last : Service}
    (hlater : run Service.next reported later = some last) :
    (reported.server.tasks.countP fun task => task.point.unfinished) ≤
        reported.server.ctx.forced.toNat ∧
      last.pool.pool.queue.contents.length ≤ reported.server.ctx.forced.toNat := by
  have hlinked : reported.Linked :=
    run_invariant (fun _ _ _ hinv hadmits hnext => hinv.step hadmits hnext)
      (service_start_linked hcreate fresh timeout) hgrow hrun
  obtain ⟨steps, hsteps⟩ := service_projects hrun
  let accounted (server : State) : Prop := RequestAccount server ∧ server.Reported
  have hserver : ∀ server label following, accounted server →
      next server label = some following → accounted following :=
    fun _ _ _ hinv hnext => ⟨hinv.1.move (next_moves hnext).2, next_reported hinv.1 hinv.2 hnext⟩
  have hinit : accounted (initializeServer fresh timeout) := ⟨.init fresh timeout, trivial⟩
  obtain ⟨hrequests, hreported⟩ := run_preserves hserver hinit hsteps
  have hunfinished := hrequests.unfinished_le
  rw [hrequests.counter] at hunfinished
  rw [State.Reported, hmain] at hreported
  refine ⟨hunfinished.trans hreported, ?_⟩
  have hqueued : reported.server.tasks.countP Task.isQueued ≤
      reported.server.tasks.countP fun task => task.point.unfinished :=
    List.countP_mono_left fun task _ hqueued => by
      rw [show task.point = .queued from of_decide_eq_true hqueued]
      rfl
  let closes (s : Service) : Prop := s.Linked ∧ s.server.main.closing = true ∧
    s.server.tasks.countP Task.isQueued ≤ reported.server.tasks.countP Task.isQueued
  have hclosing : ∀ s label following, closes s → Service.next s label = some following →
      closes following := by
    rintro s label following ⟨hs, hmain, hle⟩ hnext
    obtain ⟨hfollowing, hstays, hfewer⟩ := service_closing_step hs hmain hnext
    exact ⟨hfollowing, hstays, hfewer.trans hle⟩
  have hreport : closes reported := ⟨hlinked, by rw [hmain]; rfl, Nat.le_refl _⟩
  obtain ⟨hlast, -, hle⟩ := run_preserves hclosing hreport hlater
  rw [hlast.queued, List.length_findIdxs]
  exact hle.trans (hqueued.trans (hunfinished.trans hreported))

/-- `SIGTERM` comes while one connection is served and one waits, and the deadline passes. -/
def drainTimesOut : List ServiceLabel :=
  oneServedOneQueued ++
    [.server (.deliver .sigterm), .server (.handler 0 {}), .server (.handler 0 {}),
      .server (.handler 0 {}), .server (.handler 0 {}), .server (.handler 0 {}),
      .server (.handler 0 {}), .server (.main {}), .server (.main {}), .server (.main {}),
      .server (.main { clock := .ofSec 31 }), .server (.main {}), .server (.main {}),
      .server (.main {}), .server (.main {}), .server (.main {})]

/-- The task that waits is lost, and is one of the two that the drain has reported. -/
theorem drain_times_out :
    ∃ fresh, ipLimiterInit 2 0 = some fresh ∧
      ∃ reported, run Service.next (.start fresh 30 smallPool) drainTimesOut = some reported ∧
        reported.server.main = .reporting 2 ∧ reported.server.ctx.forced = 2 ∧
        ∃ last, run Service.next reported [.server (.main {}), .pool .shutdown] = some last ∧
          last.pool.pool.queue.contents = [1] ∧
          last.pool.pool.queue.contents.length ≤ reported.server.ctx.forced.toNat := by
  obtain ⟨fresh, hinit⟩ : ∃ fresh, ipLimiterInit 2 0 = some fresh := ⟨_, rfl⟩
  have hgrow : Throughout Service.next Service.GrowsOffStart (.start fresh 30 smallPool)
      drainTimesOut := by
    cases hinit
    decide +kernel
  have hlost : (run Service.next (.start fresh 30 smallPool) drainTimesOut).any (fun reported =>
      (run Service.next reported [.server (.main {}), .pool .shutdown]).any fun last =>
        decide (reported.server.main = .reporting 2 ∧ reported.server.ctx.forced = 2 ∧
          last.pool.pool.queue.contents = [1])) = true := by
    cases hinit
    decide +kernel
  obtain ⟨reported, hrun, hlater⟩ := (Option.any_eq_true _ _).mp hlost
  obtain ⟨last, hlast, hfacts⟩ := (Option.any_eq_true _ _).mp hlater
  obtain ⟨hmain, hforced, hqueue⟩ := of_decide_eq_true hfacts
  have hcreate : threadPoolCreate 1 2 (some fun _ => 0) (some fun _ => 0) (fun _ => true) =
      some smallPool := rfl
  exact ⟨fresh, hinit, reported, hrun, hmain, hforced, last, hlast, hqueue,
    (lost_at_most_reported 30 hcreate hgrow hrun hmain hlast).2⟩

end Runs

end Emme.Lifecycle
