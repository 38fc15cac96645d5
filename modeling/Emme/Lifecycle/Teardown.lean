import Emme.Lifecycle.Service
import Emme.ThreadPool.Join
import Emme.ThreadPool.Wakeups

/-!
# Nothing runs behind the shutdown

`cleanup_server_resources` calls `thread_pool_destroy` and then releases what the client tasks use.
This is safe if no `pthread_create` failed: then every worker has ended when the last handle is
joined (`nothing_runs_behind_destroy`), since a worker that is live always has its handle among
those that are joined.
-/

namespace Emme.ThreadPool

open Execution Threads Slots

variable {Task : Type}

section Steps

variable {run following : PoolRun Task} {label : PoolLabel Task}

/-- Only `thread_pool_destroy` shuts the pool down. -/
theorem shutdown_step (hlabel : label ≠ .shutdown) (hnext : poolNext run label = some following) :
    following.pool.shutdown = run.pool.shutdown := by
  cases pool_step_of_next hnext with
  | addTask task memory created => exact (add_task_counts run.pool task memory created _).1
  | move hlabel hworker hlive hstarted hend =>
      cases hend with
      | exits hcause => exact mark_thread_exit_shutdown _ _
      | stays queue phase hstays => rfl
  | shutdown => exact absurd rfl hlabel
  | readArg | join => rfl

/-- When every worker has ended, only the main thread takes steps. -/
theorem PoolRun.AllExited.step (h : run.AllExited) (hnext : poolNext run label = some following)
    (hadd : ∀ task memory created, label ≠ .addTask task memory created) :
    (label = .shutdown ∨ label = .join) ∧ following.workers = run.workers := by
  cases pool_step_of_next hnext with
  | addTask task memory created => exact absurd rfl (hadd task memory created)
  | readArg hworker => exact absurd (h _ (List.mem_of_getElem? hworker)) (by simp [Phase.isExited])
  | move hlabel hworker hlive hstarted hend =>
      exact absurd ((h _ (List.mem_of_getElem? hworker)).symm.trans hlive) (by decide)
  | shutdown => exact ⟨Or.inl rfl, rfl⟩
  | join => exact ⟨Or.inr rfl, rfl⟩

end Steps

end Emme.ThreadPool

namespace Emme.Lifecycle

open Emme.IpLimiter Emme.ThreadPool Execution Threads

/-! ## The server on the pool -/

/-- A worker that is to be started for a connection starts. -/
def Service.CreateSucceeds (s : Service) : ServiceLabel → Prop
  | .dispatch memory created =>
      ThreadPool.CreateSucceeds s.pool (.addTask s.server.tasks.length memory created)
  | _ => True

instance (s : Service) : DecidablePred s.CreateSucceeds
  | .dispatch memory created =>
      inferInstanceAs (Decidable (ThreadPool.CreateSucceeds s.pool
        (.addTask s.server.tasks.length memory created)))
  | .server _ | .pool _ | .serve _ _ => inferInstanceAs (Decidable True)

/-- The main thread has left `perform_shutdown` when the pool is shut down. -/
structure Service.Ordered (s : Service) : Prop where
  accountable : s.pool.Accountable
  last : s.pool.pool.shutdown = true → s.server.main = .finished

/-- Every worker has ended, and the main thread will not dispatch any more. -/
structure Service.Quiet (s : Service) : Prop where
  exited : s.pool.AllExited
  main : s.server.main = .finished

section Steps

variable {s s' : Service} {label : ServiceLabel}

/-- What a step does to the pool: nothing, or one of its steps, in which it is not shut down before
the main thread has finished. -/
theorem service_pool_step (hnext : s.next label = some s') :
    s'.pool = s.pool ∨
      ∃ step, poolNext s.pool step = some s'.pool ∧
        (s.CreateSucceeds label → ThreadPool.CreateSucceeds s.pool step) ∧
        (step = .shutdown → s.server.main = .finished) := by
  cases service_step_of_next hnext with
  | server hserver htask => exact Or.inl rfl
  | dispatch hmain hpool hserver => exact Or.inr ⟨_, hpool, id, by simp⟩
  | @pool step pool _ hadd hpool hbegin hdestroy =>
      rw [(begin_cases hbegin).1]
      refine Or.inr ⟨_, hpool, fun _ => ?_, hdestroy⟩
      cases step with
      | addTask task memory created => exact absurd rfl (hadd task memory created)
      | _ => trivial
  | serve ht hserver => exact Or.inl rfl

/-- The main thread stays at its end. -/
theorem next_finished {server server' : State} {step : Label} (hmain : server.main = .finished)
    (hnext : next server step = some server') : server'.main = .finished := by
  cases step with
  | deliver sig =>
      cases hnext
      exact hmain
  | main answers =>
      simp only [next, stepMain, hmain] at hnext
      cases hnext
  | task t answers =>
      obtain ⟨task, point, -, -, -, -, heq, -⟩ := next_task_cases hnext
      exact heq.trans hmain
  | handler i answers =>
      simp only [next] at hnext
      split at hnext
      · exact (step_handler_keeps hnext).2.2.2.trans hmain
      · cases hnext

/-- The pool is shut down only behind the last step of the main thread. -/
theorem shutdown_last_step (h : s.pool.pool.shutdown = true → s.server.main = .finished)
    (hnext : s.next label = some s') (hshutdown : s'.pool.pool.shutdown = true) :
    s'.server.main = .finished := by
  have hmain (hfinished : s.server.main = .finished) : s'.server.main = .finished := by
    rcases service_server_step hnext with heq | ⟨step, hstep⟩
    · rw [heq]
      exact hfinished
    · exact next_finished hfinished hstep
  rcases service_pool_step hnext with heq | ⟨step, hpool, -, hdestroy⟩
  · rw [heq] at hshutdown
    exact hmain (h hshutdown)
  · by_cases hstep : step = .shutdown
    · exact hmain (hdestroy hstep)
    · exact hmain (h ((shutdown_step hstep hpool).symm.trans hshutdown))

/-- As long as `pthread_create` succeeds, the service stays in order. -/
theorem Service.Ordered.step (h : s.Ordered) (hcreates : s.CreateSucceeds label)
    (hnext : s.next label = some s') : s'.Ordered := by
  refine ⟨?_, shutdown_last_step h.last hnext⟩
  rcases service_pool_step hnext with heq | ⟨step, hpool, hstarts, -⟩
  · rw [heq]
    exact h.accountable
  · exact h.accountable.step (hstarts hcreates) hpool

/-- Without the main thread and the tasks only signals are handled. -/
theorem next_handler_keeps {server server' : State} {step : Label}
    (hmain : server.main = .finished) (htask : ∀ t answers, step ≠ .task t answers)
    (hnext : next server step = some server') :
    server'.tasks = server.tasks ∧ server'.addresses = server.addresses := by
  cases step with
  | deliver sig =>
      cases hnext
      exact ⟨rfl, rfl⟩
  | main answers =>
      simp only [next, stepMain, hmain] at hnext
      cases hnext
  | task t answers => exact absurd rfl (htask t answers)
  | handler i answers =>
      simp only [next] at hnext
      split at hnext
      · obtain ⟨haddresses, -, htasks, -⟩ := step_handler_keeps hnext
        exact ⟨htasks, haddresses⟩
      · cases hnext

/-- Once it is quiet, no step touches a task or the limiter. -/
theorem Service.Quiet.step (h : s.Quiet) (hnext : s.next label = some s') :
    s'.Quiet ∧ s'.server.tasks = s.server.tasks ∧
      s'.server.addresses = s.server.addresses := by
  cases service_step_of_next hnext with
  | server hserver htask =>
      exact ⟨⟨h.exited, next_finished h.main hserver⟩, next_handler_keeps h.main htask hserver⟩
  | dispatch hmain hpool hserver =>
      rw [h.main] at hmain
      cases hmain
  | @pool step pool _ hadd hpool hbegin hdestroy =>
      -- A worker that has ended takes no step, so that no task begins.
      obtain ⟨hlabel, hworkers⟩ := h.exited.step hpool hadd
      have hnone : s.pool.begins step = [] := by rcases hlabel with rfl | rfl <;> rfl
      rw [hnone] at hbegin
      cases hbegin
      refine ⟨⟨?_, h.main⟩, rfl, rfl⟩
      rw [PoolRun.AllExited, hworkers]
      exact h.exited
  | serve ht hserver =>
      obtain ⟨slot, index, hworker⟩ := task_of_eq ht
      exact absurd (h.exited _ (List.mem_of_getElem? hworker)) (by simp [Phase.isExited])

end Steps

/-! ## Whole runs -/

/-- A worker that has ended executes nothing. -/
theorem executing_all_exited {run : PoolRun Nat} (h : run.AllExited) : run.executing = [] := by
  refine List.eq_nil_iff_forall_not_mem.mpr fun task hmem => ?_
  obtain ⟨w, ⟨slot, index, phase⟩, hworker, htask⟩ := mem_inventory.mp hmem
  have hexited := h _ (List.mem_of_getElem? hworker)
  cases phase with
  | busy other => cases hexited
  | _ => exact List.not_mem_nil htask

/-- If the ring of the queue is not doubled while `front` is 0 and no `pthread_create` fails: once
`thread_pool_destroy` has joined the last handle, every worker has ended, every task has come to its
end or has never begun, and whatever happens later no task takes a step and nobody calls the
limiter. -/
theorem nothing_runs_behind_destroy {fresh : Limiter} (timeout : Int) {minThreads maxThreads : Nat}
    {memory : Option (Nat → Nat)} {arrays : Option (Nat → Nat)} {created : Nat → Bool}
    {pool : Pool Nat}
    (hcreate : threadPoolCreate minThreads maxThreads memory arrays created = some pool)
    {labels : List ServiceLabel}
    (hgrow : Throughout Service.next Service.GrowsOffStart (.start fresh timeout pool) labels)
    (hcreates : Throughout Service.next Service.CreateSucceeds (.start fresh timeout pool) labels)
    {final : Service} (hrun : run Service.next (.start fresh timeout pool) labels = some final)
    (hdestroyed : final.pool.Destroyed) {later : List ServiceLabel} {last : Service}
    (hlater : run Service.next final later = some last) :
    (∀ worker ∈ last.pool.workers, worker.phase.isExited = true) ∧
      (∀ task ∈ last.server.tasks, task.point = .queued ∨ task.point = .finished) ∧
      last.server.tasks = final.server.tasks ∧
      last.server.addresses = final.server.addresses := by
  have hlinked : final.Linked :=
    run_invariant (fun _ _ _ hinv hadmits hnext => hinv.step hadmits hnext)
      (service_start_linked hcreate fresh timeout) hgrow hrun
  have hstart : (Service.start fresh timeout pool).Ordered := by
    refine ⟨start_accountable hcreate, fun hshutdown => ?_⟩
    obtain ⟨queue, count, garbage, -, -, rfl⟩ := create_cases hcreate
    cases hshutdown
  have hordered : final.Ordered :=
    run_invariant (fun _ _ _ hinv hadmits hnext => hinv.step hadmits hnext) hstart hcreates hrun
  have hquiet : final.Quiet :=
    ⟨hordered.accountable.all_exited hdestroyed, hordered.last hdestroyed.1⟩
  let kept (s : Service) : Prop := s.Quiet ∧ s.server.tasks = final.server.tasks ∧
    s.server.addresses = final.server.addresses
  have hstep : ∀ s label following, kept s → Service.next s label = some following →
      kept following := by
    rintro s label following ⟨hs, htasks, haddresses⟩ hnext
    obtain ⟨hfollowing, hsame, hbook⟩ := hs.step hnext
    exact ⟨hfollowing, hsame.trans htasks, hbook.trans haddresses⟩
  have hkept : kept final := ⟨hquiet, rfl, rfl⟩
  obtain ⟨hlast, htasks, haddresses⟩ := run_preserves hstep hkept hlater
  refine ⟨hlast.exited, fun task hmem => ?_, htasks, haddresses⟩
  rw [htasks] at hmem
  obtain ⟨t, ht⟩ := List.mem_iff_getElem?.mp hmem
  by_contra hbetween
  obtain ⟨hbegun, hunfinished⟩ := not_or.mp hbetween
  have hexecuting := hlinked.running t task ht hbegun hunfinished
  rw [executing_all_exited hquiet.exited] at hexecuting
  exact List.not_mem_nil hexecuting

/-- The drain times out, the task that is served comes to its end, and the pool is destroyed. -/
def destroyedBehindDrain : List ServiceLabel :=
  drainTimesOut ++
    [.server (.main {}), .pool .shutdown, .serve 0 {}, .serve 0 {}, .serve 0 {}, .serve 0 {},
      .serve 0 {}, .pool (.finish 0), .pool (.readArg 1), .pool (.enter 1), .pool (.enter 0),
      .pool .join, .pool .join]

/-- Behind the end of `thread_pool_destroy` one task has finished, one never began, and no worker
runs. -/
theorem one_finished_one_lost :
    ∃ fresh, ipLimiterInit 2 0 = some fresh ∧
      ∃ final, run Service.next (.start fresh 30 smallPool) destroyedBehindDrain = some final ∧
        final.server.tasks.map Task.point = [.finished, .queued] ∧
        ∀ worker ∈ final.pool.workers, worker.phase.isExited = true := by
  obtain ⟨fresh, hinit⟩ : ∃ fresh, ipLimiterInit 2 0 = some fresh := ⟨_, rfl⟩
  have hgrow : Throughout Service.next Service.GrowsOffStart (.start fresh 30 smallPool)
      destroyedBehindDrain := by
    cases hinit
    decide +kernel
  have hcreates : Throughout Service.next Service.CreateSucceeds (.start fresh 30 smallPool)
      destroyedBehindDrain := by
    cases hinit
    decide +kernel
  obtain ⟨final, hrun, hpoints, hdestroyed⟩ :
      ∃ final, run Service.next (.start fresh 30 smallPool) destroyedBehindDrain = some final ∧
        (final.server.tasks.map Task.point = [.finished, .queued] ∧
          final.pool.pool.shutdown = true ∧
          final.pool.joined.length = final.pool.pool.threadsCreated) := by
    cases hinit
    exact exists_final (by decide +kernel)
  have hcreate : threadPoolCreate 1 2 (some fun _ => 0) (some fun _ => 0) (fun _ => true) =
      some smallPool := rfl
  have hstays : run Service.next final [] = some final := rfl
  exact ⟨fresh, hinit, final, hrun, hpoints,
    (nothing_runs_behind_destroy 30 hcreate hgrow hcreates hrun hdestroyed hstays).1⟩

end Emme.Lifecycle
