import Emme.ThreadPool.Workers

/-!
# Joining the workers

`thread_pool_destroy` joins the handles in `threads[0..threads_created)`. A slot keeps the handle of
the last worker started in it, and that of a worker that could not be started has none. The joined
threads are exactly the started ones if every worker is started in a new slot and `pthread_create`
never fails (`destroy_joins_iff`); a worker that is live always has its handle in its slot
(`PoolRun.Handled`).
-/

namespace Emme.ThreadPool

open Execution Threads Slots

variable {Task : Type}

/-! ## What a step does to the handles -/

/-- `thread_pool_add_task` calls `pthread_create`: the pool is to grow and has a slot. -/
def CallsCreate (pool : Pool Task) (task : Task) (memory : Option (Nat → Task)) : Prop :=
  pool.GrowsOn task memory ∧
    (pickSlot { pool with queue := (taskQueuePush pool.queue task memory).2 }).1 < pool.maxThreads

instance (pool : Pool Task) (task : Task) (memory : Option (Nat → Task)) :
    Decidable (CallsCreate pool task memory) :=
  inferInstanceAs (Decidable (_ ∧ _))

/-- A step that calls `pthread_create` finds no slot to use again, and the call succeeds. -/
def StartsInNewSlot (run : PoolRun Task) : PoolLabel Task → Prop
  | .addTask task memory created =>
      CallsCreate run.pool task memory → run.pool.freeCount = 0 ∧ created = true
  | _ => True

instance (run : PoolRun Task) : (label : PoolLabel Task) → Decidable (StartsInNewSlot run label)
  | .addTask _ _ _ => inferInstanceAs (Decidable (_ → _))
  | .readArg _ | .enter _ | .wake _ _ | .finish _ | .shutdown | .join =>
      inferInstanceAs (Decidable True)

/-- A step that calls `pthread_create` does so with success. -/
def CreateSucceeds (run : PoolRun Task) : PoolLabel Task → Prop
  | .addTask task memory created => CallsCreate run.pool task memory → created = true
  | _ => True

instance (run : PoolRun Task) : (label : PoolLabel Task) → Decidable (CreateSucceeds run label)
  | .addTask _ _ _ => inferInstanceAs (Decidable (_ → _))
  | .readArg _ | .enter _ | .wake _ _ | .finish _ | .shutdown | .join =>
      inferInstanceAs (Decidable True)

/-- The run after `pthread_create` was called for a slot. -/
def PoolRun.grown (run : PoolRun Task) (pool : Pool Task) (index : Nat) (created : Bool) :
    PoolRun Task :=
  run.started
    (pool.withWorker index created run.workers.length, if created then some index else none)

/-- Each worker has the slot it had before, and was live if it is. -/
def Follow (workers following : List (Worker Task)) : Prop :=
  ∀ (w : Nat) (worker : Worker Task), following[w]? = some worker →
    ∃ before : Worker Task, workers[w]? = some before ∧ worker.slot = before.slot ∧
      (worker.phase.isExited = false → before.phase.isExited = false)

/-- Workers that stay as they are follow themselves. -/
theorem follow_refl (workers : List (Worker Task)) : Follow workers workers :=
  fun _ worker hworker => ⟨worker, hworker, rfl, id⟩

variable {w minThreads maxThreads : Nat} {worker : Worker Task} {memory : Option (Nat → Task)}
  {arrays : Option (Nat → Nat)} {created : Nat → Bool} {pool : Pool Task} {final : PoolRun Task}

/-- A live worker goes on in its slot. -/
theorem follow_set {workers : List (Worker Task)} {moved : Worker Task}
    (hworker : workers[w]? = some worker) (hlive : worker.phase.isExited = false)
    (hslot : moved.slot = worker.slot) : Follow workers (workers.set w moved) := by
  intro v other hother
  by_cases heq : w = v
  · subst heq
    obtain ⟨hlt, -⟩ := List.getElem?_eq_some_iff.mp hworker
    rw [List.getElem?_set_self hlt] at hother
    obtain rfl := Option.some.inj hother
    exact ⟨worker, hworker, hslot, fun _ => hlive⟩
  · rw [List.getElem?_set_ne heq] at hother
    exact ⟨other, hother, rfl, id⟩

/-- A step that starts no worker: the handles and the started threads stay, no slot comes into
use, and at most one more handle has been joined. -/
structure Steady (run following : PoolRun Task) : Prop where
  threads : following.pool.threads = run.pool.threads
  created : following.pool.threadsCreated = run.pool.threadsCreated
  started : following.workers.length = run.workers.length
  workers : Follow run.workers following.workers
  occupied : ∀ slot ∈ following.occupied, slot ∈ run.occupied
  shutdown : following.pool.shutdown = false → run.pool.shutdown = false
  joined : following.joined = run.joined ∨
    run.pool.shutdown = true ∧
      following.joined = run.joined ++ [run.pool.threads run.joined.length]

/-- Adding a task calls `pthread_create` for a slot that has been picked, or changes no more than
the queue. -/
theorem add_task_creates {run : PoolRun Task} (hsound : run.Sound) (task : Task)
    (memory : Option (Nat → Task)) (created : Bool) :
    (¬ CallsCreate run.pool task memory ∧
        ∃ queue, run.started
          (threadPoolAddTask run.pool task memory created run.workers.length).2 =
            { run with pool := { run.pool with queue } }) ∨
      CallsCreate run.pool task memory ∧
        ∃ pool index, Picked run pool index ∧
          run.started (threadPoolAddTask run.pool task memory created run.workers.length).2 =
            run.grown pool index created := by
  have hquiet (queue : TaskQueue Task) : run.started ({ run.pool with queue }, none) =
      { run with pool := { run.pool with queue } } := by
    simp [PoolRun.started]
  rcases add_task_cases run.pool task memory created run.workers.length with
    ⟨hgrows, queue, heq⟩ | ⟨hgrows, queue, hqueue, heq⟩
  · exact Or.inl ⟨fun hcalls => hgrows hcalls.1, queue, by rw [heq, hquiet]⟩
  · rcases hsound.pick queue with hpicked | hfull
    · have hslot : (pickSlot { run.pool with queue }).1 <
          (pickSlot { run.pool with queue }).2.maxThreads :=
        (hpicked.bounded _ List.mem_cons_self).trans_le hpicked.created_le
      have hmax : (pickSlot { run.pool with queue }).2.maxThreads = run.pool.maxThreads := by
        rw [hpicked.same]
      refine Or.inr ⟨⟨hgrows, ?_⟩, _, _, hpicked, ?_⟩
      · rw [← hqueue]
        exact hslot.trans_eq hmax
      · rw [heq, start_worker_eq hslot]
        rfl
    · refine Or.inl ⟨fun hcalls => ?_, queue, ?_⟩
      · have hlt := hcalls.2
        rw [← hqueue, hfull] at hlt
        exact lt_irrefl _ hlt
      · have hnone := start_worker_full { run.pool with queue } created run.workers.length
        rw [heq, hfull, ← hquiet]
        exact congrArg run.started hnone

/-- A worker's section of code leaves the handles alone. -/
theorem move_steady {run : PoolRun Task} (hsound : run.Sound)
    (hworker : run.workers[w]? = some worker) (hlive : worker.phase.isExited = false)
    (hstarted : worker.phase ≠ .starting) {result : Pool Task × Phase Task}
    (hend : SectionEnd run.pool worker.index result) : Steady run (run.move w worker result) := by
  have hindex := hsound.read worker (List.mem_of_getElem? hworker) hstarted
  cases hend with
  | exits hcause =>
      obtain ⟨hfree, hnum⟩ := hsound.guards hworker hlive
      have hoccupied := hsound.occupied_exits hworker hlive
      rw [hindex]
      rw [mark_thread_exit_eq hfree hnum] at hoccupied ⊢
      exact ⟨rfl, rfl, List.length_set, follow_set hworker hlive rfl,
        fun _ hslot => hoccupied.mem_iff.mp hslot, id, Or.inl rfl⟩
  | stays queue phase hstays =>
      have hheld : Worker.held { worker with phase } = worker.held := by
        rw [Worker.held_live hlive]
        exact Worker.held_live hstays
      have hoccupied := (live_slots_keep hworker hheld).append_right run.pool.freeSlots
      exact ⟨rfl, rfl, List.length_set, follow_set hworker hlive rfl,
        fun _ hslot => hoccupied.mem_iff.mp hslot, id, Or.inl rfl⟩

/-- What a step of a sound run can do: call `pthread_create` for a slot that has been picked, or
leave the handles and the started threads as they are. -/
theorem step_creates {run following : PoolRun Task} {label : PoolLabel Task}
    (hsound : run.Sound) (hnext : poolNext run label = some following) :
    (StartsInNewSlot run label ∧ Steady run following) ∨
      ∃ task memory created pool index, label = .addTask task memory created ∧
        CallsCreate run.pool task memory ∧ Picked run pool index ∧
        following = run.grown pool index created := by
  cases pool_step_of_next hnext with
  | addTask task memory created =>
      rcases add_task_creates hsound task memory created with
        ⟨hcalls, queue, heq⟩ | ⟨hcalls, pool, index, hpicked, heq⟩
      · refine Or.inl ⟨fun hcall => absurd hcall hcalls, ?_⟩
        rw [heq]
        exact ⟨rfl, rfl, rfl, follow_refl _, fun _ hslot => hslot, id, Or.inl rfl⟩
      · exact Or.inr ⟨task, memory, created, pool, index, rfl, hcalls, hpicked, heq⟩
  | @readArg w slot index hworker =>
      have hoccupied := (live_slots_keep hworker
        (rfl : Worker.held ⟨slot, run.pool.workerArgs slot, .ready⟩ = _)).append_right
          run.pool.freeSlots
      exact Or.inl ⟨trivial, rfl, rfl, List.length_set, follow_set hworker rfl rfl,
        fun _ hslot => hoccupied.mem_iff.mp hslot, id, Or.inl rfl⟩
  | move hlabel hworker hlive hstarted hend =>
      refine Or.inl ⟨?_, move_steady hsound hworker hlive hstarted hend⟩
      cases label with
      | addTask task memory created => exact absurd rfl (hlabel task memory created)
      | _ => trivial
  | shutdown =>
      exact Or.inl ⟨trivial, rfl, rfl, rfl, follow_refl _, fun _ hslot => hslot, by simp,
        Or.inl rfl⟩
  | join hshutdown =>
      exact Or.inl ⟨trivial, rfl, rfl, rfl, follow_refl _, fun _ hslot => hslot, id,
        Or.inr ⟨hshutdown, rfl⟩⟩

/-! ## The handles of the live workers -/

/-- The handle of every live worker is in its slot, and every slot has the handle of a thread that
was started in it. -/
structure PoolRun.Handled (run : PoolRun Task) : Prop where
  live : ∀ (w : Nat) (worker : Worker Task), run.workers[w]? = some worker →
    worker.phase.isExited = false → run.pool.threads worker.slot = some w
  named : ∀ slot < run.pool.threadsCreated, ∃ (thread : Nat) (worker : Worker Task),
    run.pool.threads slot = some thread ∧ run.workers[thread]? = some worker ∧ worker.slot = slot

namespace PoolRun.Handled

variable {run following : PoolRun Task} {label : PoolLabel Task}

/-- No thread has its handle in two slots. -/
theorem threads_inj (h : run.Handled) {slot other : Nat} (hslot : slot < run.pool.threadsCreated)
    (hother : other < run.pool.threadsCreated)
    (hsame : run.pool.threads slot = run.pool.threads other) : slot = other := by
  obtain ⟨thread, worker, hthread, hworker, rfl⟩ := h.named slot hslot
  obtain ⟨thread', worker', hthread', hworker', rfl⟩ := h.named other hother
  obtain rfl : thread = thread' :=
    Option.some.inj (hthread.symm.trans (hsame.trans hthread'))
  exact congrArg Worker.slot (Option.some.inj (hworker.symm.trans hworker'))

/-- A step that starts no worker leaves every handle where it is. -/
theorem steady (h : run.Handled) (hsteady : Steady run following) : following.Handled where
  live := by
    intro w worker hworker hlive
    obtain ⟨before, hbefore, hslot, hwas⟩ := hsteady.workers w worker hworker
    rw [hsteady.threads, hslot]
    exact h.live w before hbefore (hwas hlive)
  named := by
    intro slot hslot
    rw [hsteady.created] at hslot
    obtain ⟨thread, before, hthread, hbefore, hin⟩ := h.named slot hslot
    obtain ⟨hlt, -⟩ := List.getElem?_eq_some_iff.mp hbefore
    have hworker := List.getElem?_eq_getElem (hlt.trans_eq hsteady.started.symm)
    obtain ⟨before', hbefore', hsame, -⟩ := hsteady.workers _ _ hworker
    obtain rfl := Option.some.inj (hbefore.symm.trans hbefore')
    refine ⟨thread, _, ?_, hworker, hsame.trans hin⟩
    rw [hsteady.threads]
    exact hthread

/-- The worker that is started overwrites the handle of no live worker: the slot that has been
picked is not in use. -/
theorem grown (h : run.Handled) {pool : Pool Task} {index : Nat} (hpicked : Picked run pool index) :
    (run.grown pool index true).Handled := by
  have hthreads (slot : Nat) : (run.grown pool index true).pool.threads slot =
      Function.update run.pool.threads index (some run.workers.length) slot := by
    show Function.update pool.threads index (some run.workers.length) slot = _
    rw [hpicked.same]
  have hworkers : (run.grown pool index true).workers =
      run.workers ++ [{ slot := index, index := 0, phase := .starting }] := rfl
  have hnew : (run.grown pool index true).workers[run.workers.length]? =
      some { slot := index, index := 0, phase := .starting } := by
    rw [hworkers, List.getElem?_concat_length]
  refine ⟨fun w worker hworker hlive => ?_, fun slot hslot => ?_⟩
  · rw [hthreads]
    rw [hworkers, List.getElem?_append] at hworker
    split at hworker
    · have hin : worker.slot ∈ run.liveSlots :=
        mem_inventory.mpr ⟨w, worker, hworker, by simp [Worker.held_live hlive]⟩
      have hne : worker.slot ≠ index := by
        rintro rfl
        exact (List.nodup_cons.mp hpicked.nodup).1 (List.mem_append_left _ hin)
      rw [Function.update_of_ne hne]
      exact h.live w worker hworker hlive
    · next hge =>
        obtain ⟨hzero, rfl⟩ := List.getElem?_eq_some_iff.mp hworker
        have heq : w = run.workers.length := by
          have hlt : w - run.workers.length < 1 := hzero
          omega
        simp [heq]
  · rw [hthreads]
    by_cases heq : slot = index
    · exact ⟨run.workers.length, _, by rw [heq, Function.update_self], hnew, heq.symm⟩
    · have hslot : slot < pool.threadsCreated := hslot
      have hold : slot < run.pool.threadsCreated := by
        rcases hpicked.origin with ⟨-, -, hcreated⟩ | ⟨-, hindex, hcreated⟩ <;> omega
      obtain ⟨thread, worker, hthread, hworker, hin⟩ := h.named slot hold
      obtain ⟨hlt, -⟩ := List.getElem?_eq_some_iff.mp hworker
      refine ⟨thread, worker, ?_, ?_, hin⟩
      · rw [Function.update_of_ne heq]
        exact hthread
      · rw [hworkers, List.getElem?_append_left hlt]
        exact hworker

/-- As long as `pthread_create` succeeds, the handles stay in their slots. -/
theorem step (h : run.Handled) (hsound : run.Sound) (hcreates : CreateSucceeds run label)
    (hnext : poolNext run label = some following) : following.Handled := by
  rcases step_creates hsound hnext with
    ⟨-, hsteady⟩ | ⟨task, memory, created, pool, index, rfl, hcalls, hpicked, rfl⟩
  · exact h.steady hsteady
  · obtain rfl : created = true := hcreates hcalls
    exact h.grown hpicked

end PoolRun.Handled

/-- All handles are in their slots when `thread_pool_create` returns. -/
theorem start_handled
    (hcreate : threadPoolCreate minThreads maxThreads memory arrays created = some pool) :
    (PoolRun.start pool).Handled := by
  obtain ⟨queue, count, garbage, -, -, rfl⟩ := create_cases hcreate
  have hworkers (w : Nat) : (PoolRun.start (.initial queue count maxThreads garbage)).workers[w]? =
      if w < count then some { slot := w, index := 0, phase := .starting } else none := by
    by_cases hlt : w < count <;> simp [PoolRun.start, Pool.initial, hlt]
  refine ⟨fun w worker hworker hlive => ?_, fun slot hslot => ?_⟩
  · rw [hworkers] at hworker
    obtain ⟨hlt, heq⟩ := Option.ite_none_right_eq_some.mp hworker
    cases heq
    exact if_pos hlt
  · exact ⟨slot, _, if_pos hslot, (hworkers slot).trans (if_pos hslot), rfl⟩

/-! ## Intact and broken handles -/

/-- Every started thread has its handle in the slot of its number. -/
structure PoolRun.Intact (run : PoolRun Task) : Prop where
  length_eq : run.workers.length = run.pool.threadsCreated
  handles : ∀ slot < run.pool.threadsCreated, run.pool.threads slot = some slot

/-- A slot without a handle has been lost, or more threads were started than there are slots. -/
def PoolRun.Broken (run : PoolRun Task) : Prop :=
  (∃ slot < run.pool.threadsCreated, run.pool.threads slot = none ∧ slot ∉ run.occupied) ∨
    run.pool.threadsCreated < run.workers.length

/-- The handles that have been joined are the first ones, and none before the shutdown. -/
structure PoolRun.Joining (run : PoolRun Task) : Prop where
  joined : run.joined = stack run.pool.threads run.joined.length
  none_before : run.pool.shutdown = false → run.joined = []

section Grown

variable {run : PoolRun Task} {pool : Pool Task} {index : Nat}

/-- The slots that are in use or on the stack once the worker has been started, or not. -/
theorem occupied_grown (run : PoolRun Task) (pool : Pool Task) (index : Nat) (created : Bool) :
    (run.grown pool index created).occupied =
      run.liveSlots ++ (if created then [index] else []) ++ pool.freeSlots := by
  rw [PoolRun.occupied, PoolRun.grown, live_slots_started]
  cases created <;> rfl

/-- A slot in which no worker could be started is lost. -/
theorem grown_fails (hpicked : Picked run pool index) : (run.grown pool index false).Broken := by
  refine Or.inl ⟨index, hpicked.bounded index List.mem_cons_self, Function.update_self _ _ _, ?_⟩
  have hnot := (List.nodup_cons.mp hpicked.nodup).1
  rw [occupied_grown]
  simpa using hnot

/-- A lost slot stays lost. -/
theorem grown_keeps_lost (hpicked : Picked run pool index) (created : Bool) {slot : Nat}
    (hslot : slot < run.pool.threadsCreated) (hnone : run.pool.threads slot = none)
    (hlost : slot ∉ run.occupied) : (run.grown pool index created).Broken := by
  have hne : slot ≠ index := by
    rintro rfl
    rcases hpicked.origin with ⟨-, hmem, -⟩ | ⟨-, heq, -⟩
    · exact hlost hmem
    · omega
  have hle : run.pool.threadsCreated ≤ pool.threadsCreated := by
    rcases hpicked.origin with ⟨-, -, heq⟩ | ⟨-, -, heq⟩ <;> omega
  refine Or.inl ⟨slot, hslot.trans_le hle, ?_, fun hmem => hlost ?_⟩
  · show Function.update pool.threads index _ slot = none
    rw [Function.update_of_ne hne, hpicked.same]
    exact hnone
  · rw [occupied_grown] at hmem
    have hrest : slot ∈ run.liveSlots ++ pool.freeSlots := by
      cases created <;> simpa [hne] using hmem
    exact hpicked.rest slot hrest

/-- How many threads have been started. -/
theorem length_grown (created : Bool) :
    (run.grown pool index created).workers.length = run.workers.length + created.toNat := by
  cases created <;> simp [PoolRun.grown, PoolRun.started]

/-- A worker started in a slot that was never used has its handle there. -/
theorem grown_intact (hintact : run.Intact) (hpicked : Picked run pool index)
    (hempty : run.pool.freeCount = 0) : (run.grown pool index true).Intact := by
  obtain ⟨hlength, hhandles⟩ := hintact
  rcases hpicked.origin with ⟨hne, -, -⟩ | ⟨-, rfl, hcreated⟩
  · exact absurd hempty hne
  · refine ⟨?_, fun slot hslot => ?_⟩
    · rw [length_grown, hlength]
      exact hcreated.symm
    · show Function.update pool.threads run.pool.threadsCreated (some run.workers.length) slot = _
      have hslot : slot < pool.threadsCreated := hslot
      by_cases heq : slot = run.pool.threadsCreated
      · rw [heq, Function.update_self, hlength]
      · rw [Function.update_of_ne heq, hpicked.same]
        exact hhandles slot (by omega)

/-- A worker started in a slot that was used before leaves a thread without a slot. -/
theorem grown_reuses (hintact : run.Intact) (hpicked : Picked run pool index)
    (hreused : run.pool.freeCount ≠ 0) : (run.grown pool index true).Broken := by
  rcases hpicked.origin with ⟨-, -, hcreated⟩ | ⟨hempty, -, -⟩
  · refine Or.inr ?_
    rw [length_grown, hintact.length_eq]
    show pool.threadsCreated < run.pool.threadsCreated + 1
    omega
  · exact absurd hempty hreused

end Grown

/-! ## Steps -/

section Steps

variable {run following : PoolRun Task} {label : PoolLabel Task}

/-- A worker that is started in a new slot leaves the handles intact. -/
theorem PoolRun.Intact.step (hintact : run.Intact) (hsound : run.Sound)
    (hnew : StartsInNewSlot run label) (hnext : poolNext run label = some following) :
    following.Intact := by
  rcases step_creates hsound hnext with
    ⟨-, hsteady⟩ | ⟨task, memory, created, pool, index, rfl, hcalls, hpicked, rfl⟩
  · refine ⟨?_, fun slot hslot => ?_⟩
    · rw [hsteady.started, hsteady.created, hintact.length_eq]
    · rw [hsteady.threads]
      exact hintact.handles slot (hsteady.created ▸ hslot)
  · obtain ⟨hempty, rfl⟩ := hnew hcalls
    exact grown_intact hintact hpicked hempty

/-- Once broken, the handles stay broken. -/
theorem PoolRun.Broken.step (hbroken : run.Broken) (hsound : run.Sound)
    (hnext : poolNext run label = some following) : following.Broken := by
  rcases step_creates hsound hnext with
    ⟨-, hsteady⟩ | ⟨task, memory, created, pool, index, rfl, -, hpicked, rfl⟩
  · rcases hbroken with ⟨slot, hslot, hnone, hlost⟩ | hmore
    · refine Or.inl ⟨slot, hsteady.created.symm ▸ hslot, hsteady.threads.symm ▸ hnone, ?_⟩
      exact fun hmem => hlost (hsteady.occupied slot hmem)
    · refine Or.inr ?_
      rw [hsteady.created, hsteady.started]
      exact hmore
  · rcases hbroken with ⟨slot, hslot, hnone, hlost⟩ | hmore
    · exact grown_keeps_lost hpicked created hslot hnone hlost
    · cases created with
      | false => exact grown_fails hpicked
      | true =>
          refine Or.inr ?_
          have hcreated : pool.threadsCreated ≤ run.pool.threadsCreated + 1 := by
            rcases hpicked.origin with ⟨-, -, heq⟩ | ⟨-, -, heq⟩ <;> omega
          rw [length_grown]
          show pool.threadsCreated < run.workers.length + 1
          omega

/-- A step that starts a worker in a slot used before, or fails to, breaks the handles. -/
theorem PoolRun.Intact.breaks (hintact : run.Intact) (hsound : run.Sound)
    (hnew : ¬ StartsInNewSlot run label) (hnext : poolNext run label = some following) :
    following.Broken := by
  rcases step_creates hsound hnext with
    ⟨hnew', -⟩ | ⟨task, memory, created, pool, index, rfl, -, hpicked, rfl⟩
  · exact absurd hnew' hnew
  · cases created with
    | false => exact grown_fails hpicked
    | true =>
        refine grown_reuses hintact hpicked fun hempty => hnew ?_
        exact fun _ => ⟨hempty, rfl⟩

/-- The joins go through the handles in their order. -/
theorem PoolRun.Joining.step (hjoining : run.Joining) (hsound : run.Sound)
    (hnext : poolNext run label = some following) : following.Joining := by
  rcases step_creates hsound hnext with
    ⟨-, hsteady⟩ | ⟨task, memory, created, pool, index, rfl, hcalls, hpicked, rfl⟩
  · rcases hsteady.joined with heq | ⟨hshutdown, heq⟩
    · refine ⟨?_, fun hrunning => ?_⟩
      · rw [heq, hsteady.threads]
        exact hjoining.joined
      · rw [heq]
        exact hjoining.none_before (hsteady.shutdown hrunning)
    · refine ⟨?_, fun hrunning => ?_⟩
      · rw [heq, hsteady.threads, List.length_append, List.length_singleton, stack_succ,
          ← hjoining.joined]
      · exact absurd (hshutdown.symm.trans (hsteady.shutdown hrunning)) (by decide)
  · -- Before the shutdown nothing has been joined.
    have hnone : (run.grown pool index created).joined = [] := hjoining.none_before hcalls.1.1
    exact ⟨by rw [hnone]; rfl, fun _ => hnone⟩

end Steps

/-! ## Workers that have ended -/

/-- `thread_pool_destroy` has joined the last handle. -/
def PoolRun.Destroyed (run : PoolRun Task) : Prop :=
  run.pool.shutdown = true ∧ run.joined.length = run.pool.threadsCreated

/-- Every worker has ended. -/
def PoolRun.AllExited (run : PoolRun Task) : Prop :=
  ∀ worker ∈ run.workers, worker.phase.isExited = true

/-- The threads that have been joined have ended. -/
def PoolRun.JoinedEnded (run : PoolRun Task) : Prop :=
  ∀ thread, some thread ∈ run.joined → run.Ended thread

section Ended

variable {run following : PoolRun Task} {label : PoolLabel Task}

/-- A worker that has ended is not the one that goes on. -/
theorem exited_set {other : Nat} {live changed : Worker Task}
    (hworker : run.workers[w]? = some worker) (hexited : worker.phase.isExited = true)
    (hother : run.workers[other]? = some live) (hlive : live.phase.isExited = false) :
    (run.workers.set other changed)[w]? = some worker := by
  have hne : other ≠ w := by
    rintro rfl
    obtain rfl : worker = live := Option.some.inj (hworker.symm.trans hother)
    exact absurd (hexited.symm.trans hlive) (by decide)
  rw [List.getElem?_set_ne hne]
  exact hworker

/-- A worker that has ended takes no further step. -/
theorem exited_stays (hworker : run.workers[w]? = some worker)
    (hexited : worker.phase.isExited = true) (hnext : poolNext run label = some following) :
    following.workers[w]? = some worker := by
  cases pool_step_of_next hnext with
  | addTask task memory created =>
      obtain ⟨hlt, -⟩ := List.getElem?_eq_some_iff.mp hworker
      exact (List.getElem?_append_left hlt).trans hworker
  | readArg hstarting => exact exited_set hworker hexited hstarting rfl
  | move hlabel hother hlive hstarted hend => exact exited_set hworker hexited hother hlive
  | shutdown | join => exact hworker

/-- A thread that has ended stays so, if no other is started. -/
theorem PoolRun.Ended.step {thread : Nat} (hended : run.Ended thread)
    (hlength : following.workers.length = run.workers.length)
    (hnext : poolNext run label = some following) : following.Ended thread := by
  intro worker hworker
  obtain ⟨hlt, -⟩ := List.getElem?_eq_some_iff.mp hworker
  have horiginal := List.getElem?_eq_getElem (hlt.trans_eq hlength)
  have hexited := hended _ horiginal
  have hstays := exited_stays horiginal hexited hnext
  obtain rfl := Option.some.inj (hstays.symm.trans hworker)
  exact hexited

/-- `pthread_join` returns for threads that have ended, and they stay so. -/
theorem PoolRun.JoinedEnded.step (h : run.JoinedEnded) (hsound : run.Sound)
    (hjoining : run.Joining) (hnext : poolNext run label = some following) :
    following.JoinedEnded := by
  have hkept (thread : Nat) (hmem : some thread ∈ run.joined) : following.Ended thread := by
    refine (h thread hmem).step ?_ hnext
    rcases step_creates hsound hnext with
      ⟨-, hsteady⟩ | ⟨task, memory, created, pool, index, rfl, hcalls, -, -⟩
    · exact hsteady.started
    · -- Before the shutdown nothing has been joined.
      rw [hjoining.none_before hcalls.1.1] at hmem
      exact absurd hmem List.not_mem_nil
  cases pool_step_of_next hnext with
  | join hshutdown =>
      intro thread hmem
      obtain ⟨⟨-, -, hreturns⟩, -⟩ := Option.ite_none_right_eq_some.mp hnext
      rcases List.mem_append.mp hmem with hmem | hmem
      · exact hkept thread hmem
      · exact hreturns thread (List.mem_singleton.mp hmem).symm
  | addTask | readArg | move | shutdown => exact hkept

end Ended

/-- What is known of the handles as long as `pthread_create` succeeds. -/
structure PoolRun.Accountable (run : PoolRun Task) : Prop where
  sound : run.Sound
  handled : run.Handled
  joining : run.Joining
  ended : run.JoinedEnded

namespace PoolRun.Accountable

variable {run following : PoolRun Task} {label : PoolLabel Task}

/-- One step keeps account of the handles. -/
theorem step (h : run.Accountable) (hcreates : CreateSucceeds run label)
    (hnext : poolNext run label = some following) : following.Accountable where
  sound := h.sound.step hnext
  handled := h.handled.step h.sound hcreates hnext
  joining := h.joining.step h.sound hnext
  ended := h.ended.step h.sound h.joining hnext

/-- The next handle is one of a thread that has not been joined yet. -/
theorem next_handle (h : run.Accountable) (hleft : run.joined.length < run.pool.threadsCreated) :
    ∃ thread < run.workers.length,
      run.pool.threads run.joined.length = some thread ∧ some thread ∉ run.joined := by
  obtain ⟨thread, worker, hthread, hworker, -⟩ := h.handled.named _ hleft
  obtain ⟨hlt, -⟩ := List.getElem?_eq_some_iff.mp hworker
  refine ⟨thread, hlt, hthread, fun hmem => ?_⟩
  rw [h.joining.joined] at hmem
  obtain ⟨slot, hslot, hsame⟩ := List.mem_map.mp hmem
  have hslot := List.mem_range.mp hslot
  have heq := h.handled.threads_inj (hslot.trans hleft) hleft (hsame.trans hthread.symm)
  omega

/-- When the last handle has been joined, every worker has ended: the handle of one that is live
would be among those that were joined. -/
theorem all_exited (h : run.Accountable) (hdestroyed : run.Destroyed) : run.AllExited := by
  intro worker hmem
  by_contra hexited
  have hlive : worker.phase.isExited = false := Bool.eq_false_iff.mpr hexited
  obtain ⟨w, hworker⟩ := List.mem_iff_getElem?.mp hmem
  have hin : worker.slot ∈ run.liveSlots :=
    mem_inventory.mpr ⟨w, worker, hworker, by simp [Worker.held_live hlive]⟩
  have hslot : worker.slot < run.pool.threadsCreated :=
    h.sound.bounded _ (List.mem_append_left _ hin)
  have hjoined : some w ∈ run.joined := by
    rw [h.joining.joined, hdestroyed.2, stack]
    exact List.mem_map.mpr
      ⟨worker.slot, List.mem_range.mpr hslot, h.handled.live w worker hworker hlive⟩
  exact hexited (h.ended w hjoined worker hworker)

end PoolRun.Accountable

/-- The account is in order when `thread_pool_create` returns. -/
theorem start_accountable
    (hcreate : threadPoolCreate minThreads maxThreads memory arrays created = some pool) :
    (PoolRun.start pool).Accountable where
  sound := start_sound hcreate
  handled := start_handled hcreate
  joining := ⟨rfl, fun _ => rfl⟩
  ended := fun _ hmem => absurd hmem List.not_mem_nil

/-! ## Whole runs -/

/-- `pthread_join` was called exactly once on each thread started, and on nothing else. -/
def PoolRun.JoinsStarted (run : PoolRun Task) : Prop :=
  run.joined.Perm ((List.range run.workers.length).map some)

instance (run : PoolRun Task) : Decidable run.JoinsStarted :=
  inferInstanceAs (Decidable (List.Perm _ _))

/-- All handles are in place when `thread_pool_create` returns. -/
theorem start_intact
    (hcreate : threadPoolCreate minThreads maxThreads memory arrays created = some pool) :
    (PoolRun.start pool).Intact := by
  obtain ⟨queue, count, garbage, -, -, rfl⟩ := create_cases hcreate
  refine ⟨?_, fun slot hslot => if_pos hslot⟩
  simp [PoolRun.start, Pool.initial]

/-- A run with a step that is not clean ends with broken handles. -/
theorem broken_of_reuse {start : PoolRun Task} {labels : List (PoolLabel Task)}
    (hsound : start.Sound) (hintact : start.Intact)
    (hrun : run poolNext start labels = some final)
    (hreuse : ¬ Throughout poolNext StartsInNewSlot start labels) : final.Broken := by
  induction labels generalizing start with
  | nil => exact absurd trivial hreuse
  | cons label labels ih =>
      obtain ⟨following, hnext, hrest⟩ := run_cons_eq_some.mp hrun
      have hsound' := hsound.step hnext
      by_cases hnew : StartsInNewSlot start label
      · refine ih hsound' (hintact.step hsound hnew hnext) hrest fun hall => hreuse ⟨hnew, ?_⟩
        intro other hother
        obtain rfl : following = other := Option.some.inj (hnext.symm.trans hother)
        exact hall
      · have hbroken := hintact.breaks hsound hnew hnext
        have hstep (state : PoolRun Task) (later : PoolLabel Task) (next : PoolRun Task)
            (hinv : state.Sound ∧ state.Broken) (htaken : poolNext state later = some next) :
            next.Sound ∧ next.Broken := ⟨hinv.1.step htaken, hinv.2.step hinv.1 htaken⟩
        exact (run_preserves hstep ⟨hsound', hbroken⟩ hrest).2

/-- Intact handles, all joined, are those of the started threads. -/
theorem PoolRun.Intact.joins (hintact : final.Intact)
    (hjoined : final.joined = stack final.pool.threads final.pool.threadsCreated) :
    final.JoinsStarted := by
  rw [PoolRun.JoinsStarted, hjoined, hintact.length_eq, stack]
  refine List.Perm.of_eq (List.map_congr_left fun slot hslot => ?_)
  exact hintact.handles slot (List.mem_range.mp hslot)

/-- Broken handles are not those of the started threads. -/
theorem PoolRun.Broken.not_joins (hbroken : final.Broken)
    (hjoined : final.joined = stack final.pool.threads final.pool.threadsCreated) :
    ¬ final.JoinsStarted := by
  intro hperm
  rw [PoolRun.JoinsStarted, hjoined] at hperm
  rcases hbroken with ⟨slot, hslot, hnone, -⟩ | hmore
  · have hmem : none ∈ stack final.pool.threads final.pool.threadsCreated :=
      List.mem_map.mpr ⟨slot, List.mem_range.mpr hslot, hnone⟩
    obtain ⟨_, -, hsome⟩ := List.mem_map.mp (hperm.mem_iff.mp hmem)
    cases hsome
  · have hlength := hperm.length_eq
    rw [length_stack, List.length_map, List.length_range] at hlength
    omega

/-- Over every run from `thread_pool_create` to the end of `thread_pool_destroy`: each started
thread is joined exactly once, and nothing else is, if and only if every growth of the pool finds
no slot to use again and its `pthread_create` succeeds. -/
theorem destroy_joins_iff (minThreads maxThreads : Nat) (memory : Option (Nat → Task))
    (arrays : Option (Nat → Nat)) (created : Nat → Bool) (pool : Pool Task)
    (hcreate : threadPoolCreate minThreads maxThreads memory arrays created = some pool)
    (labels : List (PoolLabel Task)) (final : PoolRun Task)
    (hrun : run poolNext (.start pool) labels = some final) (hdestroyed : final.Destroyed) :
    final.JoinsStarted ↔ Throughout poolNext StartsInNewSlot (.start pool) labels := by
  have hsound := start_sound hcreate
  have hintact := start_intact hcreate
  have hstart : (PoolRun.start pool).Joining := ⟨rfl, fun _ => rfl⟩
  have hstep (state : PoolRun Task) (label : PoolLabel Task) (next : PoolRun Task)
      (hinv : state.Sound ∧ state.Joining) (htaken : poolNext state label = some next) :
      next.Sound ∧ next.Joining := ⟨hinv.1.step htaken, hinv.2.step hinv.1 htaken⟩
  have hjoined : final.joined = stack final.pool.threads final.pool.threadsCreated := by
    rw [← hdestroyed.2]
    exact (run_preserves hstep ⟨hsound, hstart⟩ hrun).2.joined
  constructor
  · intro hjoins
    by_contra hreuse
    exact (broken_of_reuse hsound hintact hrun hreuse).not_joins hjoined hjoins
  · intro hclean
    have hkept (state : PoolRun Task) (label : PoolLabel Task) (next : PoolRun Task)
        (hinv : state.Sound ∧ state.Intact) (hnew : StartsInNewSlot state label)
        (htaken : poolNext state label = some next) : next.Sound ∧ next.Intact :=
      ⟨hinv.1.step htaken, hinv.2.step hinv.1 hnew htaken⟩
    exact (run_invariant hkept ⟨hsound, hintact⟩ hclean hrun).2.joins hjoined

/-- A pool that has grown once and is destroyed: both its threads are joined. -/
theorem destroy_joins_grown :
    ∃ final, run poolNext (.start smallPool)
        [.addTask 1 none true, .addTask 2 none true, .shutdown, .readArg 0, .readArg 1, .enter 1,
          .enter 0, .join, .join] = some final ∧
      final.joined = [some 0, some 1] ∧ final.JoinsStarted :=
  ⟨_, rfl, rfl, (destroy_joins_iff 1 2 (some fun _ => 0) (some fun _ => 0) (fun _ => true)
    smallPool rfl
    [.addTask 1 none true, .addTask 2 none true, .shutdown, .readArg 0, .readArg 1, .enter 1,
      .enter 0, .join, .join] _ rfl ⟨rfl, rfl⟩).mpr (by decide)⟩

/-- The second of three threads is never joined: the third was started in its slot. -/
theorem destroy_misses_thread :
    ∃ final, run poolNext (.start smallPool)
        (shrinkAndGrow ++
          [.shutdown, .wake 0 false, .readArg 2, .enter 2, .join, .join]) = some final ∧
      final.Destroyed ∧ final.workers.length = 3 ∧ final.joined = [some 0, some 2] ∧
      ¬ final.JoinsStarted :=
  ⟨_, rfl, ⟨rfl, rfl⟩, rfl, rfl, by decide⟩

end Emme.ThreadPool
