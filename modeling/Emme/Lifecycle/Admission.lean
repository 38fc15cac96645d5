import Emme.Lifecycle.Accounts
import Emme.Lifecycle.Signals

/-!
# The end of admission

A signal handler only stores the new state; the accept loop loads it at its head and after `accept`.
`shutdown_stops_admission` bounds what the loop can still do once the state is not `RUNNING`.
-/

namespace Emme.Lifecycle

open Execution

/-! ## What the accept loop may still do -/

/-- The main thread is about to ask the limiter, after it found the state `RUNNING`. -/
def MainPoint.asksLimiter : MainPoint → Bool
  | .checking _ => true
  | _ => false

/-- The main thread has a connection that it may yet hand to the thread pool. -/
def MainPoint.mayDispatch : MainPoint → Bool
  | .checking _ => true
  | .gettingFlags _ => true
  | .settingFlags _ => true
  | .allocating _ => true
  | .counting _ => true
  | .loadingCount _ => true
  | .publishing _ _ => true
  | .dispatching _ => true
  | _ => false

/-- The most steps the main thread takes to `perform_shutdown` if it finds the state changed. -/
def MainPoint.loopDistance : MainPoint → Nat
  | .testing => 1
  | .housekeeping => 3
  | .accepting => 2
  | .loadingState _ => 1
  | .checking _ => 13
  | .gettingFlags _ => 12
  | .settingFlags _ => 11
  | .allocating _ => 10
  | .counting _ => 9
  | .loadingCount _ => 8
  | .publishing _ _ => 7
  | .dispatching _ => 6
  | .uncounting _ => 5
  | .reloadingCount _ => 4
  | .republishing _ _ => 3
  | .releasing _ => 2
  | _ => 0

/-- The main thread is in the accept loop. -/
def MainPoint.inLoop (point : MainPoint) : Bool := 0 < point.loopDistance

/-- The step is one of the main thread. -/
def Label.isMain : Label → Bool
  | .main _ => true
  | _ => false

/-- No point of the loop is more than 13 steps from its end. -/
theorem loop_distance_le (point : MainPoint) : point.loopDistance ≤ 13 := by
  cases point <;> exact of_decide_eq_true rfl

/-- From the one point to the other the main thread comes closer to the end of the loop, with
nothing new in hand. -/
def MainPoint.Nears (point point' : MainPoint) : Prop :=
  point'.asksLimiter = false ∧ point'.mayDispatch.toNat ≤ point.mayDispatch.toNat ∧
    point'.loopDistance ≤ point.loopDistance - 1

instance (point point' : MainPoint) : Decidable (point.Nears point') :=
  inferInstanceAs (Decidable (_ ∧ _ ∧ _))

/-- What a step can still do: the connections and tasks that there are or may come from what the
main thread has in hand do not become more, and the main thread comes closer to the end of the loop.
-/
structure Ceases (s s' : State) (mainSteps : Nat) : Prop where
  stopped : s'.ctx.state ≠ .running
  admitted : s'.admitted.length + s'.main.asksLimiter.toNat ≤
    s.admitted.length + s.main.asksLimiter.toNat
  tasks : s'.tasks.length + s'.main.mayDispatch.toNat ≤
    s.tasks.length + s.main.mayDispatch.toNat
  loop : s'.main.loopDistance ≤ s.main.loopDistance - mainSteps

section Steps

variable {s s' s'' : State}

/-- Nothing has been done. -/
theorem Ceases.refl (hstopped : s.ctx.state ≠ .running) : Ceases s s 0 :=
  ⟨hstopped, Nat.le_refl _, Nat.le_refl _, Nat.le_refl _⟩

/-- Two parts of a run, with the steps of the main thread added up. -/
theorem Ceases.trans {m n : Nat} (h : Ceases s s' m) (h' : Ceases s' s'' n) :
    Ceases s s'' (m + n) where
  stopped := h'.stopped
  admitted := h'.admitted.trans h.admitted
  tasks := h'.tasks.trans h.tasks
  loop := by
    have hfirst := h.loop
    have hsecond := h'.loop
    omega

/-- The state does not become `RUNNING` again. -/
theorem next_stopped {label : Label} (hstopped : s.ctx.state ≠ .running)
    (h : next s label = some s') : s'.ctx.state ≠ .running := by
  cases (next_shutdown h).1 with
  | keep hstate =>
      rw [hstate]
      exact hstopped
  | force _ hstate =>
      rw [hstate]
      decide
  | drain _ _ _ _ _ _ hstate =>
      rw [hstate]
      decide

/-- A step that leaves the main thread where it is, and admits and dispatches nothing. -/
theorem Ceases.of_same (hstopped : s'.ctx.state ≠ .running) (hadmitted : s'.admitted = s.admitted)
    (htasks : s'.tasks.length = s.tasks.length) (hmain : s'.main = s.main) : Ceases s s' 0 := by
  refine ⟨hstopped, ?_, ?_, ?_⟩
  · rw [hadmitted, hmain]
  · rw [htasks, hmain]
  · rw [hmain, Nat.sub_zero]

/-- A step of the main thread that admits and dispatches nothing. -/
theorem Ceases.of_nears {point point' : MainPoint} (hmain : s.main = point)
    (hmain' : s'.main = point') (hnears : point.Nears point')
    (hstopped : s'.ctx.state ≠ .running) (hadmitted : s'.admitted = s.admitted)
    (htasks : s'.tasks = s.tasks) : Ceases s s' 1 := by
  obtain ⟨hasks, hdispatch, hloop⟩ := hnears
  refine ⟨hstopped, ?_, ?_, ?_⟩
  · rw [hadmitted, hmain', hasks]
    exact Nat.le_add_right _ _
  · rw [htasks, hmain, hmain']
    exact Nat.add_le_add_left hdispatch _
  · rw [hmain, hmain']
    exact hloop

/-- A step of the main thread: it never goes back in the loop, and what it admits or dispatches is
what it has in hand. -/
theorem step_main_ceases {answers : Answers} (hstopped : s.ctx.state ≠ .running)
    (h : next s (.main answers) = some s') : Ceases s s' 1 := by
  have hstopped' := next_stopped hstopped h
  simp only [next] at h
  cases hmain : s.main with
  | testing =>
      simp only [stepMain, hmain, if_neg hstopped, Option.some.injEq] at h
      subst h
      exact .of_nears hmain rfl (of_decide_eq_true rfl) hstopped' rfl rfl
  | loadingState ip =>
      simp only [stepMain, hmain, if_pos hstopped, Option.some.injEq] at h
      subst h
      exact .of_nears hmain rfl (of_decide_eq_true rfl) hstopped' rfl rfl
  | housekeeping =>
      simp only [stepMain, hmain, Option.some.injEq] at h
      subst h
      cases answers.ok <;>
        exact .of_nears hmain rfl (of_decide_eq_true rfl) hstopped rfl rfl
  | accepting =>
      simp only [stepMain, hmain] at h
      split at h <;> cases h <;>
        exact .of_nears hmain rfl (of_decide_eq_true rfl) hstopped' rfl rfl
  | checking ip =>
      simp only [stepMain, hmain] at h
      split at h
      · cases h
        constructor
        · exact hstopped'
        · simp [State.goto, State.enter, hmain, MainPoint.asksLimiter]
        · simp [State.goto, State.enter, State.call, hmain, MainPoint.mayDispatch]
        · rw [hmain]
          exact of_decide_eq_true rfl
      · cases h
        exact .of_nears hmain rfl (of_decide_eq_true rfl) hstopped' rfl rfl
  | gettingFlags | settingFlags | leaving | draining | readingClock =>
      simp only [stepMain, hmain, Option.some.injEq] at h
      subst h
      refine .of_nears hmain rfl ?_ hstopped' rfl rfl
      split <;> exact of_decide_eq_true rfl
  | allocating =>
      simp only [stepMain, hmain] at h
      split at h
      · split at h <;> cases h
        exact .of_nears hmain rfl (of_decide_eq_true rfl) hstopped' rfl rfl
      · cases h
        exact .of_nears hmain rfl (of_decide_eq_true rfl) hstopped' rfl rfl
  | dispatching client =>
      simp only [stepMain, hmain] at h
      split at h
      · cases h
        constructor
        · exact hstopped'
        · simp [State.goto, hmain, MainPoint.asksLimiter]
        · simp [State.goto, hmain, MainPoint.mayDispatch]
        · rw [hmain]
          exact of_decide_eq_true rfl
      · cases h
        exact .of_nears hmain rfl (of_decide_eq_true rfl) hstopped' rfl rfl
  | finished =>
      simp only [stepMain, hmain] at h
      cases h
  | _ =>
      simp only [stepMain, hmain, Option.some.injEq] at h
      subst h
      exact .of_nears hmain rfl (of_decide_eq_true rfl) hstopped' rfl rfl

/-- Every step, once the state has changed. -/
theorem next_ceases {label : Label} (hstopped : s.ctx.state ≠ .running)
    (h : next s label = some s') : Ceases s s' label.isMain.toNat := by
  have hstopped' := next_stopped hstopped h
  cases label with
  | deliver sig =>
      cases h
      exact .of_same hstopped' rfl rfl rfl
  | main answers => exact step_main_ceases hstopped h
  | task t answers =>
      simp only [next] at h
      split at h
      · rename_i task _
        obtain ⟨client, point⟩ := task
        cases point <;> cases h <;>
          exact .of_same hstopped' rfl List.length_set rfl
      · cases h
  | handler i answers =>
      simp only [next] at h
      split at h
      · obtain ⟨hbook, -, htasks, hmain⟩ := step_handler_keeps h
        exact .of_same hstopped' (congrArg AddressBook.admitted hbook) (congrArg _ htasks) hmain
      · cases h

/-- Every run, once the state has changed. -/
theorem run_ceases {labels : List Label} (hstopped : s.ctx.state ≠ .running)
    (h : run next s labels = some s') : Ceases s s' (labels.countP Label.isMain) := by
  induction labels generalizing s with
  | nil =>
      cases h
      exact .refl hstopped
  | cons label labels ih =>
      obtain ⟨middle, hstep, hrest⟩ := run_cons_eq_some.mp h
      have hfirst := next_ceases hstopped hstep
      have hall := hfirst.trans (ih hfirst.stopped hrest)
      rw [List.countP_cons, Nat.add_comm]
      cases hlabel : label.isMain <;> rw [hlabel] at hall <;> exact hall

end Steps

/-- Behind the loop the main thread has no connection in hand. -/
theorem not_in_loop {point : MainPoint} (h : point.inLoop = false) :
    point.asksLimiter = false ∧ point.mayDispatch = false := by
  cases point with
  | checking | gettingFlags | settingFlags | allocating | counting | loadingCount | publishing
  | dispatching => cases h
  | _ => exact ⟨rfl, rfl⟩

/-- Once the state is not `RUNNING` it stays so; at most one more connection is admitted, and only
if the main thread had already found the state `RUNNING` for it; at most the connection in hand is
dispatched; and after thirteen steps the main thread has left the accept loop for good. -/
theorem shutdown_stops_admission {s s' : State} {labels : List Label}
    (hstopped : s.ctx.state ≠ .running) (hrun : run next s labels = some s') :
    s'.ctx.state ≠ .running ∧
      s'.admitted.length ≤ s.admitted.length + s.main.asksLimiter.toNat ∧
      s'.tasks.length ≤ s.tasks.length + s.main.mayDispatch.toNat ∧
      (13 ≤ labels.countP Label.isMain → s'.main.inLoop = false) ∧
      (s.main.inLoop = false → s'.main.inLoop = false ∧
        s'.admitted.length ≤ s.admitted.length ∧ s'.tasks.length ≤ s.tasks.length) := by
  have hceases := run_ceases hstopped hrun
  have hadmitted := hceases.admitted
  have htasks := hceases.tasks
  have hloop := hceases.loop
  have hbound := loop_distance_le s.main
  refine ⟨hceases.stopped, by omega, by omega, fun hsteps => ?_, fun hleft => ?_⟩
  · exact decide_eq_false (by omega)
  · have hzero : ¬ 0 < s.main.loopDistance := of_decide_eq_false hleft
    obtain ⟨hasks, hdispatch⟩ := not_in_loop hleft
    rw [hasks, Bool.toNat_false] at hadmitted
    rw [hdispatch, Bool.toNat_false] at htasks
    exact ⟨decide_eq_false (by omega), by omega, by omega⟩

/-- `SIGTERM` is handled while the main thread is between its test of the state and the limiter. -/
def caughtAtLimiter : List Label :=
  [.main {}, .main { ok := false }, .main { accept := .client 7 }, .main {}, .deliver .sigterm,
    .handler 0 {}, .handler 0 {}]

/-- The connection that was past the test is still admitted, and no other. -/
theorem one_more_admitted :
    ∃ s, run next smallServer caughtAtLimiter = some s ∧ ∀ labels s', run next s labels = some s' →
      s'.admitted.length ≤ 1 ∧ (13 ≤ labels.countP Label.isMain → s'.main.inLoop = false) := by
  obtain ⟨s, hrun, hstate, hmain, hnone⟩ : ∃ s, run next smallServer caughtAtLimiter = some s ∧
      (s.ctx.state = .draining ∧ s.main = .checking 7 ∧ s.admitted = []) :=
    exists_final (by decide +kernel)
  refine ⟨s, hrun, fun labels s' hrest => ?_⟩
  have hstopped : s.ctx.state ≠ .running := by
    rw [hstate]
    decide
  obtain ⟨-, hadmitted, -, hleaves, -⟩ := shutdown_stops_admission hstopped hrest
  rw [hmain, hnone] at hadmitted
  exact ⟨hadmitted, hleaves⟩

end Emme.Lifecycle
