import Emme.Lifecycle.Service
import Emme.Server.Machine

/-!
# The server seen from its descriptors

`Lifecycle.next` has the shared variables of the accept loop, the client tasks and the shutdown,
`Server.State.next` the descriptors that they open and close. To every run of the first there is one
of the second in which the same connections are accepted, given up and dispatched, and each task has
done with descriptors what it has done at its point (`run_projects`). A worker takes each task there
as soon as it is dispatched.
-/

namespace Emme.Lifecycle

open Emme.IpLimiter Emme.ThreadPool Execution
open Server (FdOp TaskEnd ClientTask ClientTaskData clientTaskFds handleClientFds)

/-! ## The two models side by side -/

/-- Where the accept loop is: between two connections, with one in hand, or behind its end. -/
inductive LoopPlace where
  | between
  | holding
  | left
  deriving DecidableEq, Repr

/-- The place of a point of the main thread. A connection that is given up is out of hand from the
decision on; its `close` comes behind the steps that give it back to the limiter. -/
def MainPoint.place : MainPoint → LoopPlace
  | .testing | .housekeeping | .accepting | .loadingState none => .between
  | .loadingState (some _) | .checking _ | .gettingFlags _ | .settingFlags _ | .allocating _
  | .counting _ | .loadingCount _ | .publishing _ _ | .dispatching _ => .holding
  | .uncounting _ | .reloadingCount _ | .republishing _ _ | .releasing _ => .between
  | .leaving | .draining | .readingClock | .forcing | .loadingPeak | .loadingRemaining _
  | .storingCompleted _ _ | .storingForced _ _ | .reporting _ | .finished => .left

/-- What a task that goes as `outcome` says has still to do with descriptors. -/
def TaskPoint.todo (outcome : TaskEnd) : TaskPoint → List FdOp
  | .queued | .starting => clientTaskFds outcome
  | .serving => handleClientFds outcome.client ++ [.release .ring]
  | .releasing => if outcome.ringOk then [] else [.closeClient]
  | .uncounting | .loadingCount | .publishing _ | .finished => []

/-- Only finitely many numbers are in use, so that `accept`, `open` and `socket` have one to
return. -/
def HasFree (fds : Descriptors.Table Server.Owner) : Prop :=
  ∃ bound, ∀ fd, bound ≤ fd → fds.owner fd = none

/-- The server on its descriptors is where the other is, when the tasks go as `outcomes` says. -/
structure State.Projects (outcomes : Nat → TaskEnd) (s : State) (d : Server.State) : Prop where
  phase : d.phase = if s.main.place = .left then .draining else .accepting
  hand : d.inHand.isSome = decide (s.main.place = .holding)
  valid : d.queue.Valid
  empty : d.queue.count = 0
  tasks : d.tasks.map ClientTask.todo = s.tasks.mapIdx fun t task => task.point.todo (outcomes t)
  /-- A task serves its client only with a ring. -/
  ring : ∀ (t : Nat) (task : Task), s.tasks[t]? = some task → task.point = .serving →
    (outcomes t).ringOk = true
  free : HasFree d.fds

/-- A task that sets up its ring has the outcome that `outcomes` gives it. -/
def RingsAs (outcomes : Nat → TaskEnd) (s : State) : Label → Prop
  | .task t answers => ∀ task ∈ s.tasks[t]?, task.point = .starting →
      answers.ok = (outcomes t).ringOk
  | _ => True

/-! ## What a task does with descriptors -/

variable {t : Nat} {queue : TaskQueue ClientTaskData} {cells : Option (Nat → ClientTaskData)}

section Execute

variable {d : Server.State} {fds fds' : Descriptors.Table Server.Owner}

/-- One number more or less leaves free ones. -/
theorem free_update (h : HasFree fds) {n : Nat} {who : Option Server.Owner}
    (howner : fds'.owner = Function.update fds.owner n who) : HasFree fds' := by
  obtain ⟨bound, hbound⟩ := h
  refine ⟨max bound (n + 1), fun fd hfd => ?_⟩
  have hle : bound ≤ fd := (Nat.le_max_left _ _).trans hfd
  have hlt : n + 1 ≤ fd := (Nat.le_max_right _ _).trans hfd
  rw [howner, Function.update_of_ne (by omega)]
  exact hbound fd hle

/-- A free number can be opened. -/
theorem HasFree.create (h : HasFree fds) (who : Server.Owner) :
    ∃ fd fds', fds.create who fd = some fds' ∧ HasFree fds' := by
  obtain ⟨bound, hbound⟩ := id h
  have hfree := hbound bound (Nat.le_refl _)
  refine ⟨bound, { fds with
    owner := Function.update fds.owner bound (some who), opened := who :: fds.opened }, ?_, ?_⟩
  · simp only [Descriptors.Table.create, hfree]
  · exact free_update h rfl

/-- A number that is closed is free. -/
theorem HasFree.close (h : HasFree fds) (meant : Server.Owner) (fd : Nat) :
    HasFree (fds.close meant fd) :=
  free_update h rfl

/-- The next operation of a task is always possible, and changes nothing but the table and what the
task has to do. -/
theorem execute_op (hfree : HasFree d.fds) {op : FdOp} {rest : List FdOp}
    (ht : (d.tasks.map ClientTask.todo)[t]? = some (op :: rest)) :
    ∃ fd fds tasks, d.next (.execute t fd) = some { d with fds, tasks } ∧
      tasks.map ClientTask.todo = (d.tasks.map ClientTask.todo).set t rest ∧ HasFree fds := by
  rw [List.getElem?_map, Option.map_eq_some_iff] at ht
  obtain ⟨task, ht, htodo⟩ := ht
  cases op with
  | acquire slot =>
      obtain ⟨fd, fds, hcreate, hfds⟩ := hfree.create (.auxiliary t slot)
      refine ⟨fd, fds, _, ?_, (List.map_set (a := { task with
        vars := Function.update task.vars slot fd, opened := slot :: task.opened, todo := rest })),
        hfds⟩
      simp only [Server.State.next, ht, Server.State.executeOp, htodo, hcreate, Option.map_some,
        Option.bind_eq_bind, Option.bind_some]
  | release slot =>
      refine ⟨0, _, _, ?_, (List.map_set (a := { task with
        opened := task.opened.erase slot, todo := rest })),
        hfree.close (.auxiliary t slot) (task.vars slot)⟩
      simp only [Server.State.next, ht, Server.State.executeOp, htodo, Option.bind_eq_bind,
        Option.bind_some]
  | closeClient =>
      refine ⟨0, _, _, ?_, (List.map_set (a := { task with todo := rest })),
        hfree.close (.connection task.data.conn) task.data.clientFd⟩
      simp only [Server.State.next, ht, Server.State.executeOp, htodo, Option.bind_eq_bind,
        Option.bind_some]

/-- A task can do its operations one after the other, as far as it likes. -/
theorem execute_ops (hfree : HasFree d.fds) {ops rest : List FdOp}
    (ht : (d.tasks.map ClientTask.todo)[t]? = some (ops ++ rest)) :
    ∃ steps fds tasks, run Server.State.next d steps = some { d with fds, tasks } ∧
      tasks.map ClientTask.todo = (d.tasks.map ClientTask.todo).set t rest ∧ HasFree fds := by
  obtain ⟨hlt, hget⟩ := List.getElem?_eq_some_iff.mp ht
  induction ops generalizing d with
  | nil =>
      refine ⟨[], d.fds, d.tasks, rfl, ?_, hfree⟩
      rw [← List.nil_append rest, ← hget, List.set_getElem_self]
  | cons op ops ih =>
      obtain ⟨fd, fds, tasks, hnext, htasks, hfds⟩ := execute_op hfree ht
      have hlt' : t < (tasks.map ClientTask.todo).length := by rwa [htasks, List.length_set]
      have ht' : (tasks.map ClientTask.todo)[t]? = some (ops ++ rest) := by
        rw [htasks, List.getElem?_set_self hlt]
        rfl
      obtain ⟨steps, fds', tasks', hrun, htasks', hfds'⟩ := @ih { d with fds, tasks } hfds ht' hlt'
        (List.getElem?_eq_some_iff.mp ht').2
      refine ⟨.execute t fd :: steps, fds', tasks',
        run_cons_eq_some.mpr ⟨_, hnext, hrun⟩, ?_, hfds'⟩
      rw [htasks', htasks, List.set_set]

end Execute

/-! ## One step -/

section Steps

variable {outcomes : Nat → TaskEnd} {s s' : State} {d : Server.State} {answers : Answers}

/-- The accept loop is not entered again. -/
theorem main_stays_left (hnext : stepMain s answers = some s') (hleft : s.main.place = .left) :
    s'.main.place = .left := by
  cases hpoint : s.main with
  | leaving | draining | readingClock =>
      simp only [stepMain, hpoint, Option.some.injEq] at hnext
      subst hnext
      rw [State.goto]
      split <;> rfl
  | forcing | loadingPeak | loadingRemaining | storingCompleted | storingForced | reporting =>
      simp only [stepMain, hpoint, Option.some.injEq] at hnext
      subst hnext
      rfl
  | finished =>
      simp only [stepMain, hpoint] at hnext
      cases hnext
  | loadingState ip =>
      rw [hpoint] at hleft
      cases ip <;> cases hleft
  | _ =>
      rw [hpoint] at hleft
      cases hleft

/-- A step of the server on its descriptors, as a run. -/
theorem run_one {label : Server.Label} {d' : Server.State} (h : d.next label = some d') :
    run Server.State.next d [label] = some d' := run_cons_eq_some.mpr ⟨d', h, rfl⟩

/-- The accept loop moves on while the tasks are as before: it takes a connection, gives one up, or
is left. -/
theorem State.Projects.loop_moves (h : s.Projects outcomes d) (htasks : s'.tasks = s.tasks)
    (hleft : s.main.place = .left → s'.main.place = .left) :
    ∃ steps d', run Server.State.next d steps = some d' ∧ s'.Projects outcomes d' := by
  have hkeep {d' : Server.State}
      (hphase : d'.phase = if s'.main.place = .left then .draining else .accepting)
      (hhand : d'.inHand.isSome = decide (s'.main.place = .holding)) (hqueue : d'.queue = d.queue)
      (hstarted : d'.tasks = d.tasks) (hfree : HasFree d'.fds) : s'.Projects outcomes d' := by
    refine ⟨hphase, hhand, hqueue ▸ h.valid, hqueue ▸ h.empty, ?_, ?_, hfree⟩
    · rw [hstarted, htasks, h.tasks]
    · rw [htasks]
      exact h.ring
  have hphase := h.phase
  have hhand := h.hand
  -- nothing happens if the place is the same
  by_cases hsame : s'.main.place = s.main.place
  · exact ⟨[], d, rfl, hkeep (by rw [hsame, hphase]) (by rw [hsame, hhand]) rfl rfl h.free⟩
  cases hplace : s.main.place with
  | between =>
      rw [hplace] at hphase hhand hsame
      have hnone : d.inHand = none := by simpa using hhand
      cases hplace' : s'.main.place with
      | between => exact absurd hplace' hsame
      | holding =>
          obtain ⟨fd, fds, hcreate, hfree⟩ := h.free.create (.connection d.accepted)
          have hnext : d.next (.accept fd) = some { d with
              fds, accepted := d.accepted + 1, inHand := some ⟨d.accepted, fd⟩ } := by
            simp [Server.State.next, hphase, hnone, hcreate]
          exact ⟨_, _, run_one hnext, hkeep (by rw [hplace']; exact hphase) (by rw [hplace']; rfl)
            rfl rfl hfree⟩
      | left =>
          have hnext : d.next .leaveLoop = some { d with phase := .draining } := by
            simp [Server.State.next, hphase, hnone]
          exact ⟨_, _, run_one hnext, hkeep (by rw [hplace']; rfl) (by rw [hplace', hnone]; rfl)
            rfl rfl h.free⟩
  | holding =>
      rw [hplace] at hphase hhand hsame
      obtain ⟨data, hdata⟩ : ∃ data, d.inHand = some data :=
        Option.isSome_iff_exists.mp (by simpa using hhand)
      have hrefuse (why : Server.Refusal) : d.next (.refuse why) = some
          { d.closeInHand data with
            phase := if why = .shuttingDown then .draining else d.phase } := by
        simp only [Server.State.next, hdata, Option.map_some]
      have hfree : HasFree (d.closeInHand data).fds := h.free.close _ _
      cases hplace' : s'.main.place with
      | between =>
          exact ⟨_, _, run_one (hrefuse .noTaskData), hkeep (by rw [hplace']; exact hphase)
            (by rw [hplace']; rfl) rfl rfl hfree⟩
      | holding => exact absurd hplace' hsame
      | left =>
          exact ⟨_, _, run_one (hrefuse .shuttingDown), hkeep (by rw [hplace']; rfl)
            (by rw [hplace']; rfl) rfl rfl hfree⟩
  | left => exact absurd ((hleft hplace).trans hplace.symm) hsame

/-- A task that is pushed on an empty queue can be popped at once. -/
theorem push_then_pop {Task : Type} {queue : TaskQueue Task} (hvalid : queue.Valid)
    (hempty : queue.count = 0) (task : Task) :
    (taskQueuePush queue task none).1 = true ∧
      ∃ taken after, taskQueuePop (taskQueuePush queue task none).2 = (some taken, after) ∧
        after.Valid ∧ after.count = 0 := by
  have hroom : queue.count < queue.capacity := hempty ▸ Nat.zero_lt_of_lt hvalid.front_lt
  have hpush : taskQueuePush queue task none = (true, taskQueueStore queue task) :=
    if_neg hroom.ne
  have hvalid' := (task_queue_pop_spec (task_queue_store_spec hvalid hroom task).1).1
  have hpop : taskQueuePop (taskQueueStore queue task) = (some _, _) := if_neg (Nat.succ_ne_zero _)
  rw [hpush]
  rw [hpop] at hvalid'
  exact ⟨rfl, _, _, hpop, hvalid', hempty⟩

/-- The connection in hand is dispatched, and a worker takes its task at once. -/
theorem State.Projects.dispatches (h : s.Projects outcomes d) (hplace : s.main.place = .holding)
    (hplace' : s'.main.place = .between) {client : Client}
    (htasks : s'.tasks = s.tasks ++ [⟨client, .queued⟩]) :
    ∃ steps d', run Server.State.next d steps = some d' ∧ s'.Projects outcomes d' := by
  obtain ⟨data, hdata⟩ : ∃ data, d.inHand = some data :=
    Option.isSome_iff_exists.mp (by rw [h.hand, hplace]; rfl)
  have hphase : d.phase = .accepting := by
    rw [h.phase, hplace]
    rfl
  obtain ⟨hpushed, taken, after, hpop, hvalid, hempty⟩ := push_then_pop h.valid h.empty data
  have hpush : d.next (.dispatch none) = some
      { d with queue := (taskQueuePush d.queue data none).2, inHand := none } := by
    simp only [Server.State.next, hdata, Option.map_some, hpushed, if_true]
  have hbegin : Server.State.next
      { d with queue := (taskQueuePush d.queue data none).2, inHand := none }
      (.pop (outcomes s.tasks.length)) = some { d with
        queue := after, inHand := none
        tasks := d.tasks ++ [ClientTask.start taken (outcomes s.tasks.length)] } := by
    simp only [Server.State.next, hphase, true_or, if_true, hpop, Option.map_some]
  refine ⟨[.dispatch none, .pop (outcomes s.tasks.length)], _,
    run_cons_eq_some.mpr ⟨_, hpush, run_one hbegin⟩, ?_⟩
  refine ⟨?_, ?_, hvalid, hempty, ?_, fun t task htask hserving => ?_, h.free⟩
  · rw [hplace']
    exact hphase
  · rw [hplace']
    rfl
  · rw [htasks, List.mapIdx_append, List.map_append, h.tasks]
    simp [ClientTask.start, TaskPoint.todo]
  · rw [htasks] at htask
    rcases Threads.get_concat htask with ⟨-, rfl⟩ | htask
    · cases hserving
    · exact h.ring t task htask hserving

/-- A task goes on, and does the operations on descriptors that lie between its two points. -/
theorem State.Projects.serves (h : s.Projects outcomes d) {task : Task}
    (htask : s.tasks[t]? = some task) {point : TaskPoint}
    (htasks : s'.tasks = s.tasks.set t { task with point }) (hmain : s'.main = s.main)
    (hring : point = .serving → (outcomes t).ringOk = true) (ops : List FdOp)
    (htodo : task.point.todo (outcomes t) = ops ++ point.todo (outcomes t)) :
    ∃ steps d', run Server.State.next d steps = some d' ∧ s'.Projects outcomes d' := by
  have hget : (d.tasks.map ClientTask.todo)[t]? = some (ops ++ point.todo (outcomes t)) := by
    rw [h.tasks, List.getElem?_mapIdx, htask, ← htodo]
    rfl
  obtain ⟨steps, fds, tasks, hrun, hstarted, hfree⟩ := execute_ops h.free hget
  refine ⟨steps, _, hrun, hmain ▸ h.phase, hmain ▸ h.hand, h.valid, h.empty, ?_,
    fun u other hother hserving => ?_, hfree⟩
  · rw [hstarted, htasks, h.tasks, List.mapIdx_set]
  · rw [htasks] at hother
    rcases Threads.get_set hother with ⟨rfl, rfl⟩ | ⟨-, hother⟩
    · exact hring hserving
    · exact h.ring u other hother hserving

/-- The points of a task and what lies between them on the side of the descriptors. -/
theorem State.Projects.task_steps (h : s.Projects outcomes d)
    (hnext : next s (.task t answers) = some s') (hrings : RingsAs outcomes s (.task t answers)) :
    ∃ steps d', run Server.State.next d steps = some d' ∧ s'.Projects outcomes d' := by
  simp only [next] at hnext
  split at hnext
  · next task ht =>
      obtain ⟨client, point⟩ := task
      cases point with
      | queued =>
          cases hnext
          exact h.serves ht rfl rfl (by simp) [] rfl
      | starting =>
          have hring : answers.ok = (outcomes t).ringOk := hrings _ ht rfl
          cases hok : answers.ok with
          | true =>
              rw [hok] at hring
              simp only [stepTask, hok, if_true] at hnext
              cases hnext
              refine h.serves ht rfl rfl (fun _ => hring.symm) [.acquire .ring] ?_
              simp only [TaskPoint.todo, clientTaskFds, ← hring, if_true]
              rfl
          | false =>
              rw [hok] at hring
              simp only [stepTask, hok, Bool.false_eq_true, if_false] at hnext
              cases hnext
              refine h.serves ht rfl rfl (by simp) [] ?_
              simp [TaskPoint.todo, clientTaskFds, ← hring]
      | serving =>
          cases hnext
          refine h.serves ht rfl rfl (by simp)
            (handleClientFds (outcomes t).client ++ [.release .ring]) ?_
          simp [TaskPoint.todo, h.ring t _ ht rfl]
      | releasing =>
          cases hnext
          exact h.serves ht rfl rfl (by simp) _ (List.append_nil _).symm
      | uncounting | loadingCount | publishing =>
          cases hnext
          exact h.serves ht rfl rfl (by simp) [] rfl
      | finished => cases hnext
  · cases hnext

/-- Every step has its counterpart on the side of the descriptors. -/
theorem State.Projects.step {label : Label} (h : s.Projects outcomes d)
    (hrings : RingsAs outcomes s label) (hnext : next s label = some s') :
    ∃ steps d', run Server.State.next d steps = some d' ∧ s'.Projects outcomes d' := by
  cases label with
  | deliver sig =>
      cases hnext
      exact h.loop_moves rfl id
  | main answers =>
      cases hpoint : s.main with
      | dispatching client =>
          simp only [next, stepMain, hpoint] at hnext
          split at hnext <;> cases hnext
          · exact h.dispatches (by rw [hpoint]; rfl) rfl rfl
          · refine h.loop_moves rfl fun hleft => ?_
            rw [hpoint] at hleft
            cases hleft
      | _ =>
          exact h.loop_moves (next_main_tasks hnext (by rw [hpoint]; rfl)) (main_stays_left hnext)
  | task t answers => exact h.task_steps hnext hrings
  | handler i answers =>
      simp only [next] at hnext
      split at hnext
      · obtain ⟨-, -, htasks, hmain⟩ := step_handler_keeps hnext
        exact h.loop_moves htasks (by rw [hmain]; exact id)
      · cases hnext

end Steps

/-! ## Whole runs -/

/-- Both models begin at the same place. -/
theorem start_projects (outcomes : Nat → TaskEnd) (limiter : Limiter) (timeout : Int)
    (hqueue : taskQueueInit cells = some queue) (others : List Nat) (poolSize : Nat) :
    (initializeServer limiter timeout).Projects outcomes (.start queue others poolSize) := by
  have hempty : queue.count = 0 := by
    obtain ⟨_, -, rfl⟩ := Option.map_eq_some_iff.mp hqueue
    rfl
  have hfree : HasFree (Server.State.start queue others poolSize).fds := by
    refine ⟨others.sum + 1, fun fd hfd => if_neg fun hmem => ?_⟩
    have hle := List.le_sum_of_mem hmem
    omega
  refine ⟨rfl, rfl, (task_queue_init_valid hqueue).1, hempty, rfl, ?_, hfree⟩
  intro t task htask
  cases htask

/-- To every run of the accept loop, the client tasks, the signals and the shutdown, and to all
outcomes of its tasks that agree with it, there is a run of the server on its descriptors that ends
where it ends. -/
theorem run_projects {limiter : Limiter} {timeout : Int} {labels : List Label} {final : State}
    (hrun : run next (initializeServer limiter timeout) labels = some final)
    {outcomes : Nat → TaskEnd}
    (hrings : Throughout next (RingsAs outcomes) (initializeServer limiter timeout) labels)
    (hqueue : taskQueueInit cells = some queue) (others : List Nat) (poolSize : Nat) :
    ∃ steps d, run Server.State.next (.start queue others poolSize) steps = some d ∧
      final.Projects outcomes d :=
  run_simulates (fun _ _ _ _ h hadmits hnext => h.step hadmits hnext)
    (start_projects outcomes limiter timeout hqueue others poolSize) hrings hrun

end Emme.Lifecycle
