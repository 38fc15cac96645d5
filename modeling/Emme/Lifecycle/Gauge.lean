import Emme.Lifecycle.Signals

/-!
# The gauge of active connections

Each thread that has updated `in_flight_requests` loads it again and then stores what it has loaded
in the gauge, so that an old value can be stored last (`overtaken_store_stays`). If no thread
updates the counter between another one's load and its store, every stored value is that of the
counter (`gauge_follows`).
-/

namespace Emme.Lifecycle

open Execution Threads

/-! ## Updates that are not published yet -/

/-- The main thread has updated the counter and not yet stored it in the gauge. -/
def MainPoint.unpublished : MainPoint → Bool
  | .loadingCount _ => true
  | .publishing _ _ => true
  | .reloadingCount _ => true
  | .republishing _ _ => true
  | _ => false

/-- The task has updated the counter and not yet stored it in the gauge. -/
def TaskPoint.unpublished : TaskPoint → Bool
  | .loadingCount => true
  | .publishing _ => true
  | _ => false

/-- How many threads are between their update of the counter and their store. -/
def State.unpublished (s : State) : Nat :=
  s.main.unpublished.toNat + s.tasks.countP fun task => task.point.unpublished

/-- When no thread is between the two, the gauge is the counter, as the `long` that
`metrics_set_active_connections` takes. -/
def State.GaugeFollows (s : State) : Prop :=
  s.unpublished = 0 → s.activeConnections = s.ctx.inFlightRequests.toInt64

instance (s : State) : Decidable s.GaugeFollows :=
  inferInstanceAs (Decidable (s.unpublished = 0 → _))

/-- What the main thread is about to store. -/
def MainPoint.stores : MainPoint → Option UInt64
  | .publishing _ count => some count
  | .republishing _ count => some count
  | _ => none

/-- What the task is about to store. -/
def TaskPoint.stores : TaskPoint → Option UInt64
  | .publishing count => some count
  | _ => none

/-- No thread is between its load of the counter and its store in the gauge. -/
def State.NoneLoaded (s : State) : Prop :=
  s.main.stores = none ∧ ∀ task ∈ s.tasks, task.point.stores = none

instance (s : State) : Decidable s.NoneLoaded := inferInstanceAs (Decidable (_ ∧ _))

/-- The main thread updates the counter in its next step. -/
def MainPoint.updates : MainPoint → Bool
  | .counting _ => true
  | .uncounting _ => true
  | _ => false

/-- The task updates the counter in its next step. -/
def TaskPoint.updates : TaskPoint → Bool
  | .uncounting => true
  | _ => false

/-- The step updates the counter. -/
def updates (s : State) : Label → Bool
  | .main _ => s.main.updates
  | .task t _ => (s.tasks[t]?).any fun task => task.point.updates
  | _ => false

/-- The counter is updated only while no thread is between its load and its store. The thread that
updates it is not: it has loaded nothing yet. -/
def UpdatesAlone (s : State) (label : Label) : Prop := updates s label = true → s.NoneLoaded

instance (s : State) (label : Label) : Decidable (UpdatesAlone s label) :=
  inferInstanceAs (Decidable (_ → _))

/-! ## One step -/

/-- What the threads have loaded and not yet stored is the counter. -/
structure State.Fresh (s : State) : Prop where
  main : ∀ count ∈ s.main.stores, count = s.ctx.inFlightRequests
  tasks : ∀ task ∈ s.tasks, ∀ count ∈ task.point.stores, count = s.ctx.inFlightRequests

/-- Nothing that was loaded is old if nothing was loaded. -/
theorem State.NoneLoaded.fresh {s : State} (h : s.NoneLoaded) : s.Fresh where
  main := fun count hcount => by
    rw [h.1] at hcount
    cases hcount
  tasks := fun task htask count hcount => by
    rw [h.2 task htask] at hcount
    cases hcount

/-- What a step does to the gauge, and whether it updates the counter: nothing at all, nothing but
leave an update to be published, or the store of a value that was loaded. -/
inductive GaugeMove (s s' : State) : Bool → Prop where
  | keep :
      s'.activeConnections = s.activeConnections →
      s'.ctx.inFlightRequests = s.ctx.inFlightRequests → s'.unpublished = s.unpublished →
      (s.Fresh → s'.Fresh) → GaugeMove s s' false
  | update : 0 < s'.unpublished → (s.NoneLoaded → s'.NoneLoaded) → GaugeMove s s' true
  | store (count : UInt64) :
      (s.Fresh → count = s.ctx.inFlightRequests) → s'.activeConnections = count.toInt64 →
      s'.ctx.inFlightRequests = s.ctx.inFlightRequests → (s.Fresh → s'.Fresh) →
      GaugeMove s s' false

section Steps

variable {s s' : State}

/-- The main thread moves, and the tasks stay. -/
theorem unpublished_main (htasks : s'.tasks = s.tasks)
    (hmain : s'.main.unpublished = s.main.unpublished) : s'.unpublished = s.unpublished := by
  rw [State.unpublished, State.unpublished, htasks, hmain]

/-- What the main thread loads is the counter, and the tasks stay. -/
theorem State.Fresh.of_main (hcounter : s'.ctx.inFlightRequests = s.ctx.inFlightRequests)
    (htasks : s'.tasks = s.tasks) (hstores : s'.main.stores.getD s.ctx.inFlightRequests =
      s.ctx.inFlightRequests) (h : s.Fresh) : s'.Fresh where
  main := fun count hcount => by
    rw [Option.mem_def.mp hcount] at hstores
    rw [hcounter]
    exact hstores
  tasks := fun task htask count hcount => by
    rw [htasks] at htask
    rw [hcounter]
    exact h.tasks task htask count hcount

/-- A step of the main thread that leaves gauge and counter alone. -/
theorem GaugeMove.of_main (hgauge : s'.activeConnections = s.activeConnections)
    (hcounter : s'.ctx.inFlightRequests = s.ctx.inFlightRequests) (htasks : s'.tasks = s.tasks)
    (hmain : s'.main.unpublished = s.main.unpublished)
    (hstores : s'.main.stores.getD s.ctx.inFlightRequests = s.ctx.inFlightRequests) :
    GaugeMove s s' false :=
  .keep hgauge hcounter (unpublished_main htasks hmain) (.of_main hcounter htasks hstores)

/-- An update by the main thread. -/
theorem GaugeMove.of_main_update (htasks : s'.tasks = s.tasks)
    (hpublish : s'.main.unpublished = true) (hstores : s'.main.stores = none) :
    GaugeMove s s' true := by
  refine .update ?_ fun h => ⟨hstores, fun task htask => h.2 task (htasks ▸ htask)⟩
  rw [State.unpublished, hpublish]
  exact Nat.add_pos_left Nat.one_pos _

/-- A store by the main thread. -/
theorem GaugeMove.of_main_store {count : UInt64} (hstored : s.main.stores = some count)
    (hgauge : s'.activeConnections = count.toInt64)
    (hcounter : s'.ctx.inFlightRequests = s.ctx.inFlightRequests) (htasks : s'.tasks = s.tasks)
    (hstores : s'.main.stores = none) : GaugeMove s s' false := by
  refine .store count (fun h => h.main count hstored) hgauge hcounter
    (.of_main hcounter htasks ?_)
  rw [hstores]
  rfl

variable {answers : Answers}

/-- What every step of the main thread does to the gauge. -/
theorem step_main_gauge (h : stepMain s answers = some s') : GaugeMove s s' s.main.updates := by
  cases hmain : s.main with
  | publishing client count | republishing client count =>
      simp only [stepMain, hmain, Option.some.injEq] at h
      subst h
      exact .of_main_store (by rw [hmain]; rfl) rfl rfl rfl rfl
  | counting client | uncounting client =>
      simp only [stepMain, hmain, Option.some.injEq] at h
      subst h
      exact .of_main_update rfl rfl rfl
  | testing =>
      simp only [stepMain, hmain, Option.some.injEq] at h
      subst h
      split <;> exact .of_main rfl rfl rfl (by rw [hmain]; rfl) rfl
  | housekeeping =>
      simp only [stepMain, hmain, Option.some.injEq] at h
      subst h
      cases answers.ok <;> exact .of_main rfl rfl rfl (by rw [hmain]; rfl) rfl
  | accepting | checking =>
      simp only [stepMain, hmain] at h
      split at h <;> cases h <;> exact .of_main rfl rfl rfl (by rw [hmain]; rfl) rfl
  | loadingState ip =>
      simp only [stepMain, hmain] at h
      split at h
      · cases h
        exact .of_main rfl rfl rfl (by rw [hmain]; rfl) rfl
      · cases h
        cases ip <;> exact .of_main rfl rfl rfl (by rw [hmain]; rfl) rfl
  | dispatching client =>
      simp only [stepMain, hmain] at h
      split at h
      · cases h
        refine .keep rfl rfl ?_ fun hfresh => ⟨fun count hcount => (by cases hcount), ?_⟩
        · simp only [State.unpublished, State.goto, hmain, List.countP_append]
          rfl
        · intro task htask count hcount
          rcases List.mem_append.mp htask with htask | htask
          · exact hfresh.tasks task htask count hcount
          · rw [List.mem_singleton.mp htask] at hcount
            cases hcount
      · cases h
        exact .of_main rfl rfl rfl (by rw [hmain]; rfl) rfl
  | allocating client =>
      simp only [stepMain, hmain] at h
      split at h
      · split at h <;> cases h
        exact .of_main rfl rfl rfl (by rw [hmain]; rfl) rfl
      · cases h
        exact .of_main rfl rfl rfl (by rw [hmain]; rfl) rfl
  | gettingFlags client | settingFlags client =>
      simp only [stepMain, hmain, Option.some.injEq] at h
      subst h
      cases answers.ok <;> exact .of_main rfl rfl rfl (by rw [hmain]; rfl) rfl
  | leaving | draining | readingClock =>
      simp only [stepMain, hmain, Option.some.injEq] at h
      subst h
      split <;> exact .of_main rfl rfl rfl (by rw [hmain]; rfl) rfl
  | finished =>
      simp only [stepMain, hmain] at h
      cases h
  | _ =>
      simp only [stepMain, hmain, Option.some.injEq] at h
      subst h
      exact .of_main rfl rfl rfl (by rw [hmain]; rfl) rfl

variable {t : Nat} {task task' : Task}

/-- A task moves, and the main thread stays. -/
theorem unpublished_task (ht : s.tasks[t]? = some task) (hmain : s'.main = s.main)
    (htasks : s'.tasks = s.tasks.set t task') :
    s'.unpublished + task.point.unpublished.toNat =
      s.unpublished + task'.point.unpublished.toNat := by
  have hcount := count_set_add (fun task : Task => task.point.unpublished) ht task'
  rw [State.unpublished, State.unpublished, hmain, htasks]
  omega

/-- What a task loads is the counter, and the other threads stay. -/
theorem State.Fresh.of_task (hcounter : s'.ctx.inFlightRequests = s.ctx.inFlightRequests)
    (hmain : s'.main = s.main) (htasks : s'.tasks = s.tasks.set t task')
    (hstores : task'.point.stores.getD s.ctx.inFlightRequests = s.ctx.inFlightRequests)
    (h : s.Fresh) : s'.Fresh where
  main := fun count hcount => by
    rw [hmain] at hcount
    rw [hcounter]
    exact h.main count hcount
  tasks := fun task htask count hcount => by
    rw [htasks] at htask
    rw [hcounter]
    rcases List.mem_or_eq_of_mem_set htask with htask | rfl
    · exact h.tasks task htask count hcount
    · rw [Option.mem_def.mp hcount] at hstores
      exact hstores

/-- A step of a task that leaves gauge and counter alone. -/
theorem GaugeMove.of_task (ht : s.tasks[t]? = some task)
    (hgauge : s'.activeConnections = s.activeConnections)
    (hcounter : s'.ctx.inFlightRequests = s.ctx.inFlightRequests) (hmain : s'.main = s.main)
    (htasks : s'.tasks = s.tasks.set t task')
    (hpoint : task'.point.unpublished = task.point.unpublished)
    (hstores : task'.point.stores.getD s.ctx.inFlightRequests = s.ctx.inFlightRequests) :
    GaugeMove s s' false := by
  have hcount := unpublished_task ht hmain htasks
  rw [hpoint] at hcount
  exact .keep hgauge hcounter (Nat.add_right_cancel hcount) (.of_task hcounter hmain htasks hstores)

/-- An update by a task. -/
theorem GaugeMove.of_task_update (ht : s.tasks[t]? = some task) (hmain : s'.main = s.main)
    (htasks : s'.tasks = s.tasks.set t task') (hbefore : task.point.unpublished = false)
    (hafter : task'.point.unpublished = true) (hstores : task'.point.stores = none) :
    GaugeMove s s' true := by
  have hcount := unpublished_task ht hmain htasks
  rw [hbefore, hafter] at hcount
  refine .update (Nat.lt_of_lt_of_eq (Nat.succ_pos _) hcount.symm) fun h => ⟨hmain ▸ h.1, ?_⟩
  intro other hother
  rw [htasks] at hother
  rcases List.mem_or_eq_of_mem_set hother with hother | rfl
  · exact h.2 other hother
  · exact hstores

/-- What every step of a task does to the gauge. -/
theorem step_task_gauge (ht : s.tasks[t]? = some task) (h : stepTask s t task answers = some s') :
    GaugeMove s s' task.point.updates := by
  obtain ⟨client, point⟩ := task
  cases point with
  | queued | serving | releasing | loadingCount =>
      cases h
      exact .of_task ht rfl rfl rfl rfl rfl rfl
  | starting =>
      cases h
      cases answers.ok <;> exact .of_task ht rfl rfl rfl rfl rfl rfl
  | uncounting =>
      cases h
      exact .of_task_update ht rfl rfl rfl rfl rfl
  | publishing count =>
      cases h
      exact .store count (fun h => h.tasks _ (List.mem_of_getElem? ht) count rfl) rfl rfl
        (.of_task rfl rfl rfl rfl)
  | finished => cases h

/-- A step of a handler leaves the gauge alone. -/
theorem step_handler_gauge {h : Nat} {handler : Handler}
    (hstep : stepHandler s h handler answers = some s') : GaugeMove s s' false := by
  have hkeep {s' : State} (hgauge : s'.activeConnections = s.activeConnections)
      (hcounter : s'.ctx.inFlightRequests = s.ctx.inFlightRequests) (hmain : s'.main = s.main)
      (htasks : s'.tasks = s.tasks) : GaugeMove s s' false :=
    .keep hgauge hcounter (by rw [State.unpublished, State.unpublished, hmain, htasks])
      fun hfresh => ⟨by rw [hmain, hcounter]; exact hfresh.main,
        by rw [htasks, hcounter]; exact hfresh.tasks⟩
  obtain ⟨sig, point⟩ := handler
  cases point with
  | loadingState =>
      simp only [stepHandler] at hstep
      split at hstep
      · cases hstep
        exact hkeep rfl rfl rfl rfl
      · cases sig <;> cases hstep <;> exact hkeep rfl rfl rfl rfl
  | finished => cases hstep
  | _ =>
      cases hstep
      exact hkeep rfl rfl rfl rfl

/-- What every step does to the gauge. -/
theorem next_gauge {label : Label} (h : next s label = some s') :
    GaugeMove s s' (updates s label) := by
  cases label with
  | deliver sig =>
      cases h
      exact .keep rfl rfl rfl fun hfresh => ⟨hfresh.main, hfresh.tasks⟩
  | main answers => exact step_main_gauge h
  | task t answers =>
      simp only [next] at h
      split at h
      · rename_i task ht
        rw [updates, ht]
        exact step_task_gauge ht h
      · cases h
  | handler i answers =>
      simp only [next] at h
      split at h
      · exact step_handler_gauge h
      · cases h

/-- A step that makes no loaded value old leaves the gauge right. -/
theorem next_follows {label : Label} (hfresh : s.Fresh) (hfollows : s.GaugeFollows)
    (halone : UpdatesAlone s label) (h : next s label = some s') :
    s'.Fresh ∧ s'.GaugeFollows := by
  have hmove := next_gauge h
  unfold UpdatesAlone at halone
  generalize updates s label = updated at hmove halone
  cases hmove with
  | keep hgauge hcounter hunpublished hkeeps =>
      refine ⟨hkeeps hfresh, ?_⟩
      rw [State.GaugeFollows, hunpublished, hgauge, hcounter]
      exact hfollows
  | update hpos hloads =>
      exact ⟨(hloads (halone rfl)).fresh, fun hnone => absurd hnone hpos.ne'⟩
  | store count hloaded hgauge hcounter hkeeps =>
      refine ⟨hkeeps hfresh, fun _ => ?_⟩
      rw [hgauge, hcounter, hloaded hfresh]

end Steps

/-! ## Runs -/

/-- In every run in which no thread updates the counter between another one's load and its store,
the gauge is the counter whenever no thread is between its update and its store. -/
theorem gauge_follows (limiter : IpLimiter.Limiter) (timeoutSeconds : Int) (labels : List Label)
    (halone : Throughout next UpdatesAlone (initializeServer limiter timeoutSeconds) labels) :
    Always next State.GaugeFollows (initializeServer limiter timeoutSeconds) labels := by
  have hstart : (initializeServer limiter timeoutSeconds).Fresh ∧
      (initializeServer limiter timeoutSeconds).GaugeFollows :=
    ⟨State.NoneLoaded.fresh ⟨rfl, fun task htask => by cases htask⟩, fun _ => rfl⟩
  exact always_of_throughout
    (fun s label s' h hlabel hnext => next_follows h.1 h.2 hlabel hnext) (fun s h => h.2) hstart
    halone

/-- The main thread accepts a connection and passes it to the thread pool. -/
def accepted (ip : UInt32) : List Label :=
  [.main {}, .main { ok := false }, .main { accept := .client ip }, .main {}, .main { ns := 1 }] ++
    List.replicate 7 (.main {})

/-- Two connections are accepted, and both tasks update the counter before either of them loads
it. -/
def alternatingUpdates : List Label :=
  accepted 7 ++ accepted 8 ++ List.replicate 5 (.task 0 {}) ++ List.replicate 5 (.task 1 {}) ++
    [.task 0 {}, .task 1 {}, .task 1 {}, .task 0 {}]

/-- Both of them load and store the last value. -/
theorem alternating_updates_follow :
    Throughout next UpdatesAlone smallServer alternatingUpdates ∧
      ∃ s, run next smallServer alternatingUpdates = some s ∧ s.unpublished = 0 ∧
        s.ctx.inFlightRequests = 0 ∧ s.activeConnections = s.ctx.inFlightRequests.toInt64 := by
  have halone : Throughout next UpdatesAlone smallServer alternatingUpdates := by decide +kernel
  obtain ⟨s, hrun, hquiet, hcounter⟩ : ∃ s, run next smallServer alternatingUpdates = some s ∧
      (s.unpublished = 0 ∧ s.ctx.inFlightRequests = 0) :=
    exists_final (by decide +kernel)
  have hfollows := gauge_follows _ _ _ halone alternatingUpdates (List.prefix_refl _) s hrun
  exact ⟨halone, s, hrun, hquiet, hcounter, hfollows hquiet⟩

/-- Two connections are accepted and their tasks end, the first of them after the second although
it updated the counter before. -/
def overtakenStore : List Label :=
  accepted 7 ++ accepted 8 ++ List.replicate 6 (.task 0 {}) ++ List.replicate 7 (.task 1 {}) ++
    [.task 0 {}]

/-- The server has nothing to do, and reports one active connection. -/
theorem overtaken_store_stays :
    (∃ s, run next smallServer overtakenStore = some s ∧ s.unpublished = 0 ∧
      s.ctx.inFlightRequests = 0 ∧ s.activeConnections = 1) ∧
    ¬ Always next State.GaugeFollows smallServer overtakenStore := by
  obtain ⟨s, hrun, hquiet, hcounter, hgauge⟩ : ∃ s, run next smallServer overtakenStore = some s ∧
      (s.unpublished = 0 ∧ s.ctx.inFlightRequests = 0 ∧ s.activeConnections = 1) :=
    exists_final (by decide +kernel)
  refine ⟨⟨s, hrun, hquiet, hcounter, hgauge⟩, fun halways => ?_⟩
  have hfollows := halways overtakenStore (List.prefix_refl _) s hrun hquiet
  rw [hgauge, hcounter] at hfollows
  exact absurd hfollows (by decide)

end Emme.Lifecycle
