import Emme.Lifecycle.Accounts
import Emme.Lifecycle.Signals

/-!
# The figures of the drain

`peak_in_flight` is a snapshot that the handler of `SIGTERM` takes, and `drain_in_flight_requests`
subtracts from it what is left. The figures are right if the snapshot is not taken while the main
thread is about to count one more connection, nor read before it is stored (`drain_figures`).
-/

namespace Emme.Lifecycle

open Emme.IpLimiter Emme.Log Emme.Router Execution Threads

/-! ## The condition -/

/-- The main thread has found the state `RUNNING`, and may go on to count a connection. -/
def MainPoint.mayCount : MainPoint → Bool
  | .checking _ => true
  | .gettingFlags _ => true
  | .settingFlags _ => true
  | .allocating _ => true
  | .counting _ => true
  | _ => false

/-- The only signal is one `SIGTERM`. -/
def OneSigterm (s : State) : Label → Prop
  | .deliver sig => s.handlers = [] ∧ sig = .sigterm
  | _ => True

instance (s : State) : ∀ label, Decidable (OneSigterm s label)
  | .deliver _ => inferInstanceAs (Decidable (_ ∧ _))
  | .main _ => isTrue trivial
  | .task _ _ => isTrue trivial
  | .handler _ _ => isTrue trivial

/-- The handler does not load the counter while the main thread may count, and the drain does not
load `peak_in_flight` before the handler has stored it. -/
def SteadySnapshot (s : State) : Label → Prop
  | .handler h _ => ∀ handler ∈ s.handlers[h]?, handler.point = .loadingCount →
      s.main.mayCount = false
  | .main _ => s.main = .loadingPeak → ∀ handler ∈ s.handlers, handler.point = .finished
  | _ => True

instance (s : State) : ∀ label, Decidable (SteadySnapshot s label)
  | .deliver _ => isTrue trivial
  | .main _ => inferInstanceAs (Decidable (_ → _))
  | .task _ _ => isTrue trivial
  | .handler _ _ => inferInstanceAs (Decidable (∀ handler ∈ _, _ → _))

/-! ## The invariant -/

/-- The main thread is in `drain_in_flight_requests`. -/
def MainPoint.drains : MainPoint → Bool
  | .draining => true
  | .readingClock => true
  | .forcing => true
  | .loadingPeak => true
  | .loadingRemaining _ => true
  | .storingCompleted _ _ => true
  | .storingForced _ _ => true
  | .reporting _ => true
  | _ => false

/-- It has loaded `peak_in_flight`. -/
def MainPoint.reports : MainPoint → Bool
  | .loadingRemaining _ => true
  | .storingCompleted _ _ => true
  | .storingForced _ _ => true
  | .reporting _ => true
  | _ => false

/-- The handler run for `SIGTERM` has not stored `DRAINING`. -/
def HandlerPoint.early : HandlerPoint → Bool
  | .loadingState => true
  | .storingDraining => true
  | _ => false

/-- What the handler run has loaded from the counter, where `peak` is `peak_in_flight`. -/
def HandlerPoint.snapshot (peak : UInt64) : HandlerPoint → Option UInt64
  | .storingPeak count => some count
  | .finished => some peak
  | _ => none

/-- The handler has stored its snapshot. -/
def State.Stored (s : State) (peak : UInt64) : Prop :=
  s.handlers = [⟨.sigterm, .finished⟩] ∧ s.ctx.peakInFlight = peak

/-- What the drain has computed so far. -/
def State.Figures (s : State) : Prop :=
  match s.main with
  | .loadingRemaining peak => s.Stored peak
  | .storingCompleted peak remaining => s.Stored peak ∧ remaining ≤ peak
  | .storingForced peak remaining =>
      s.Stored peak ∧ remaining ≤ peak ∧ s.ctx.completed = peak - remaining
  | .reporting peak =>
      s.Stored peak ∧ s.ctx.forced ≤ peak ∧ s.ctx.completed = peak - s.ctx.forced
  | _ => True

/-- What holds while at most one `SIGTERM` comes: the state is left when its handler stores
`DRAINING`, no more requests are in flight than it has counted, and what the drain computes from the
count adds up. -/
structure DrainInv (s : State) : Prop where
  requests : RequestAccount s
  one : s.handlers = [] ∨ ∃ point, s.handlers = [⟨.sigterm, point⟩] ∧ point ≠ .storingForced
  running_iff : s.ctx.state = .running ↔ ∀ handler ∈ s.handlers, handler.point.early = true
  drains : s.main.drains = true → s.ctx.state ≠ .running
  snapshot : ∀ handler ∈ s.handlers, ∀ count,
    handler.point.snapshot s.ctx.peakInFlight = some count →
    s.main.mayCount = false ∧ s.ctx.inFlightRequests ≤ count
  figures : s.Figures

section Steps

variable {s s' : State}

/-- Before the drain has loaded `peak_in_flight` there is nothing to add up. -/
theorem figures_of_not_reports (h : s.main.reports = false) : s.Figures := by
  rw [State.Figures]
  cases hmain : s.main with
  | loadingRemaining | storingCompleted | storingForced | reporting =>
      rw [hmain] at h
      cases h
  | _ => trivial

/-- It loads `peak_in_flight` inside `drain_in_flight_requests`. -/
theorem reports_of_not_drains {point : MainPoint} (h : point.drains = false) :
    point.reports = false := by
  cases point with
  | loadingRemaining | storingCompleted | storingForced | reporting => cases h
  | _ => rfl

/-- As long as the handler has not stored its snapshot, the drain has computed nothing. -/
theorem figures_of_not_stored (h : s.Figures) (hstored : s.handlers ≠ [⟨.sigterm, .finished⟩])
    (hmain : s'.main = s.main) : s'.Figures := by
  rw [State.Figures] at h ⊢
  rw [hmain]
  cases hpoint : s.main with
  | loadingRemaining =>
      rw [hpoint] at h
      exact absurd h.1 hstored
  | storingCompleted | storingForced | reporting =>
      rw [hpoint] at h
      exact absurd h.1.1 hstored
  | _ => trivial

/-- The counter does not rise unless the main thread is about to count. -/
theorem in_flight_le (h : RequestAccount s) (hmove : RequestMove s s')
    (hcount : s.main.mayCount = false) : s'.ctx.inFlightRequests ≤ s.ctx.inFlightRequests := by
  rw [UInt64.le_iff_toNat_le, h.counter, (h.move hmove).counter]
  cases hmove with
  | keep hbook hheld hhand => exact hheld.length_eq.ge
  | count client hbook hheld hhand hhand' hadmitted =>
      exfalso
      cases hmain : s.main <;> rw [hmain] at hhand hcount <;> cases hhand
      cases hcount
  | uncount client hbook hheld hhand =>
      rw [hheld.length_eq]
      exact Nat.le_succ _

variable {answers : Answers}

/-- The main thread may count only after it has found the state `RUNNING`, and drains only after
it has found the state `DRAINING`. -/
theorem step_main_enters (h : stepMain s answers = some s') :
    (s'.main.mayCount = true → s.main.mayCount = true ∨ s.ctx.state = .running) ∧
      (s'.main.drains = true →
        s.main.drains = true ∨ s.main = .leaving ∧ s.ctx.state = .draining) := by
  have hno {p : Prop} : false = true → p := fun h => absurd h Bool.false_ne_true
  cases hmain : s.main with
  | testing =>
      simp only [stepMain, hmain, Option.some.injEq] at h
      subst h
      rw [State.goto]
      split <;> exact ⟨hno, hno⟩
  | accepting | dispatching =>
      simp only [stepMain, hmain] at h
      split at h <;> cases h <;> exact ⟨hno, hno⟩
  | loadingState ip =>
      simp only [stepMain, hmain] at h
      split at h
      · cases h
        exact ⟨hno, hno⟩
      · rename_i hstate
        cases h
        refine ⟨fun _ => Or.inr (not_not.mp hstate), ?_⟩
        cases ip <;> exact hno
  | checking =>
      simp only [stepMain, hmain] at h
      split at h <;> cases h <;> exact ⟨fun _ => Or.inl rfl, hno⟩
  | gettingFlags | settingFlags =>
      simp only [stepMain, hmain, Option.some.injEq] at h
      subst h
      refine ⟨fun _ => Or.inl rfl, ?_⟩
      cases answers.ok <;> exact hno
  | allocating =>
      simp only [stepMain, hmain] at h
      split at h
      · split at h <;> cases h
        exact ⟨fun _ => Or.inl rfl, hno⟩
      · cases h
        exact ⟨fun _ => Or.inl rfl, hno⟩
  | counting =>
      simp only [stepMain, hmain, Option.some.injEq] at h
      subst h
      exact ⟨hno, hno⟩
  | leaving =>
      simp only [stepMain, hmain, Option.some.injEq] at h
      subst h
      rw [State.goto]
      split
      · rename_i hstate
        exact ⟨hno, fun _ => Or.inr ⟨rfl, hstate⟩⟩
      · exact ⟨hno, hno⟩
  | draining | readingClock =>
      simp only [stepMain, hmain, Option.some.injEq] at h
      subst h
      rw [State.goto]
      split <;> exact ⟨hno, fun _ => Or.inl rfl⟩
  | forcing | loadingPeak | loadingRemaining | storingCompleted | storingForced =>
      simp only [stepMain, hmain, Option.some.injEq] at h
      subst h
      exact ⟨hno, fun _ => Or.inl rfl⟩
  | finished =>
      simp only [stepMain, hmain] at h
      cases h
  | _ =>
      simp only [stepMain, hmain, Option.some.injEq] at h
      subst h
      exact ⟨hno, hno⟩

/-- Once the state is not `RUNNING` there is a handler run, and it has stored `DRAINING`. -/
theorem DrainInv.late (h : DrainInv s) (hstate : s.ctx.state ≠ .running) :
    ∃ point, s.handlers = [⟨.sigterm, point⟩] ∧ point.early = false := by
  have hlate := mt h.running_iff.mpr hstate
  rcases h.one with hnone | ⟨point, hhandlers, -⟩
  · rw [hnone] at hlate
    exact absurd (fun _ hmem => absurd hmem List.not_mem_nil) hlate
  · refine ⟨point, hhandlers, Bool.eq_false_iff.mpr fun hearly => hlate ?_⟩
    rw [hhandlers]
    intro handler hmem
    rw [List.mem_singleton.mp hmem]
    exact hearly

/-- A step of the main thread keeps the figures right. -/
theorem DrainInv.main_figures (h : DrainInv s) (hsteady : SteadySnapshot s (.main answers))
    (hstep : stepMain s answers = some s') : s'.Figures := by
  have hfigures := h.figures
  rw [State.Figures] at hfigures
  cases hmain : s.main with
  | leaving | draining | readingClock =>
      simp only [stepMain, hmain, Option.some.injEq] at hstep
      subst hstep
      refine figures_of_not_reports ?_
      rw [State.goto]
      split <;> rfl
  | forcing =>
      simp only [stepMain, hmain, Option.some.injEq] at hstep
      subst hstep
      exact figures_of_not_reports rfl
  | loadingPeak =>
      simp only [stepMain, hmain, Option.some.injEq] at hstep
      subst hstep
      -- the handler has passed its store of `DRAINING`, and by the condition also that of the peak
      obtain ⟨point, hhandlers, -⟩ := h.late (h.drains (by rw [hmain]; rfl))
      have hpoint : point = .finished :=
        hsteady hmain ⟨.sigterm, point⟩ (by rw [hhandlers]; exact List.mem_cons_self)
      exact ⟨hpoint ▸ hhandlers, rfl⟩
  | loadingRemaining peak =>
      rw [hmain] at hfigures
      simp only [stepMain, hmain, Option.some.injEq] at hstep
      subst hstep
      refine ⟨hfigures, ?_⟩
      have hmem : ⟨.sigterm, .finished⟩ ∈ s.handlers := by
        rw [hfigures.1]
        exact List.mem_cons_self
      exact (h.snapshot _ hmem peak (congrArg some hfigures.2)).2
  | storingCompleted peak remaining =>
      rw [hmain] at hfigures
      simp only [stepMain, hmain, Option.some.injEq] at hstep
      subst hstep
      exact ⟨hfigures.1, hfigures.2, rfl⟩
  | storingForced peak remaining =>
      rw [hmain] at hfigures
      simp only [stepMain, hmain, Option.some.injEq] at hstep
      subst hstep
      exact hfigures
  | reporting peak =>
      simp only [stepMain, hmain, Option.some.injEq] at hstep
      subst hstep
      exact figures_of_not_reports rfl
  | _ =>
      -- the drain is entered from `leaving` only
      have hdrains : s'.main.drains = false := by
        refine Bool.eq_false_iff.mpr fun hdrains => ?_
        have henters := (step_main_enters hstep).2 hdrains
        rw [hmain] at henters
        rcases henters with hdrains | ⟨hleaving, -⟩
        · cases hdrains
        · cases hleaving
      exact figures_of_not_reports (reports_of_not_drains hdrains)

/-- A step of the main thread keeps the invariant. -/
theorem DrainInv.main_step (h : DrainInv s) (hsteady : SteadySnapshot s (.main answers))
    (hstep : stepMain s answers = some s') : DrainInv s' := by
  obtain ⟨hhandlers, hpeak, hstate⟩ := step_main_shutdown hstep
  obtain ⟨hcount, hdrains⟩ := step_main_enters hstep
  have hmove := (step_main_moves hstep).2
  have hrunning : s'.ctx.state = .running ↔ s.ctx.state = .running := by
    rcases hstate with hstate | ⟨hmain, hstate⟩
    · rw [hstate]
    · -- the drain stores `FORCED`, and it was entered in another state than `RUNNING`
      rw [hstate]
      exact iff_of_false nofun (h.drains (by rw [hmain]; rfl))
  refine ⟨h.requests.move hmove, ?_, ?_, ?_, ?_, h.main_figures hsteady hstep⟩
  · rw [hhandlers]
    exact h.one
  · rw [hhandlers, hrunning]
    exact h.running_iff
  · intro hdrains'
    rw [Ne, hrunning]
    rcases hdrains hdrains' with hdrains | ⟨-, hdraining⟩
    · exact h.drains hdrains
    · rw [hdraining]
      exact nofun
  · rw [hhandlers, hpeak]
    intro handler hmem count hsnapshot
    obtain ⟨hmay, hle⟩ := h.snapshot handler hmem count hsnapshot
    refine ⟨Bool.eq_false_iff.mpr fun hmay' => ?_,
      UInt64.le_trans (in_flight_le h.requests hmove hmay) hle⟩
    rcases hcount hmay' with hmay' | hrunning
    · cases hmay.symm.trans hmay'
    · -- a handler run with a snapshot has stored `DRAINING`
      have hearly := h.running_iff.mp hrunning handler hmem
      revert hsnapshot hearly
      cases handler.point <;> exact nofun

/-- A step of a task keeps the invariant. -/
theorem DrainInv.task_step (h : DrainInv s) {t : Nat} {task : Task} (ht : s.tasks[t]? = some task)
    (hstep : stepTask s t task answers = some s') : DrainInv s' := by
  obtain ⟨hhandlers, hmain, hctx⟩ := step_task_shutdown hstep
  have hmove := (step_task_moves ht hstep).2
  refine ⟨h.requests.move hmove, ?_, ?_, ?_, ?_, ?_⟩
  · rw [hhandlers]
    exact h.one
  · rw [hhandlers, hctx]
    exact h.running_iff
  · rw [hmain, hctx]
    exact h.drains
  · rw [hhandlers, hmain]
    intro handler hmem count hsnapshot
    rw [hctx] at hsnapshot
    obtain ⟨hmay, hle⟩ := h.snapshot handler hmem count hsnapshot
    exact ⟨hmay, UInt64.le_trans (in_flight_le h.requests hmove hmay) hle⟩
  · have hfigures := h.figures
    rw [State.Figures] at hfigures ⊢
    rw [hmain]
    simp only [State.Stored] at hfigures ⊢
    rw [hhandlers, hctx]
    exact hfigures

/-- A step of the handler run, which has not finished. -/
theorem DrainInv.move_handler (h : DrainInv s) {point point' : HandlerPoint}
    (hhandlers : s.handlers = [⟨.sigterm, point⟩]) (hpoint : point ≠ .finished)
    (hhandlers' : s'.handlers = [⟨.sigterm, point'⟩]) (hpoint' : point' ≠ .storingForced)
    (hmove : RequestMove s s') (hmain : s'.main = s.main)
    (hrunning : s'.ctx.state = .running ↔ point'.early = true)
    (hdrains : s.ctx.state ≠ .running → s'.ctx.state ≠ .running)
    (hsnapshot : ∀ count, point'.snapshot s'.ctx.peakInFlight = some count →
      s.main.mayCount = false ∧ s'.ctx.inFlightRequests ≤ count) : DrainInv s' where
  requests := h.requests.move hmove
  one := Or.inr ⟨point', hhandlers', hpoint'⟩
  running_iff := by
    rw [hrunning, hhandlers']
    simp only [List.mem_singleton, forall_eq]
  drains hdrains' := hdrains (h.drains (hmain ▸ hdrains'))
  snapshot := by
    rw [hhandlers', hmain]
    intro handler hmem
    rw [List.mem_singleton.mp hmem]
    exact hsnapshot
  figures := by
    refine figures_of_not_stored h.figures (fun hfinished => hpoint ?_) hmain
    rw [hhandlers] at hfinished
    exact congrArg Handler.point (List.singleton_inj.mp hfinished)

/-- A step of the handler keeps the invariant, if its snapshot is steady. -/
theorem DrainInv.handler_step (h : DrainInv s) {i : Nat} {handler : Handler}
    (hsteady : SteadySnapshot s (.handler i answers)) (hhandler : s.handlers[i]? = some handler)
    (hstep : stepHandler s i handler answers = some s') : DrainInv s' := by
  obtain ⟨haddresses, hrequests, htasks, hmain⟩ := step_handler_keeps hstep
  have hmove := (moves_of_hand haddresses hrequests htasks (by rw [hmain])).2
  rcases h.one with hnone | ⟨point, hhandlers, hforced⟩
  · rw [hnone] at hhandler
    cases hhandler
  have hset (point' : HandlerPoint) :
      (s.gotoHandler 0 ⟨.sigterm, point⟩ point').handlers = [⟨.sigterm, point'⟩] := by
    rw [State.gotoHandler, hhandlers]
    rfl
  have hrunning : s.ctx.state = .running ↔ point.early = true := by
    rw [h.running_iff, hhandlers]
    simp only [List.mem_singleton, forall_eq]
  obtain ⟨rfl, rfl⟩ : i = 0 ∧ handler = ⟨.sigterm, point⟩ := by
    rw [hhandlers] at hhandler
    cases i with
    | zero => exact ⟨rfl, (Option.some.inj hhandler).symm⟩
    | succ i => cases hhandler
  cases point with
  | loadingState =>
      have hstate : s.ctx.state = .running := hrunning.mpr rfl
      simp only [stepHandler, hstate, ne_eq, not_true_eq_false, if_false, Option.some.injEq]
        at hstep
      subst hstep
      refine h.move_handler hhandlers (fun hpoint => ?_) (hset _) (fun hpoint => ?_) hmove rfl
        (iff_of_true hstate rfl) (fun hne => hne) (fun count hcount => ?_)
      · cases hpoint
      · cases hpoint
      · cases hcount
  -- a run for `SIGTERM` does not come here
  | storingForced => exact absurd rfl hforced
  | storingDraining =>
      cases hstep
      have hstate : ShutdownState.draining ≠ .running := fun hstate => by cases hstate
      refine h.move_handler hhandlers (fun hpoint => ?_) (hset _) (fun hpoint => ?_) hmove rfl
        (iff_of_false hstate Bool.false_ne_true) (fun _ => hstate) (fun count hcount => ?_)
      · cases hpoint
      · cases hpoint
      · cases hcount
  | readingClock | addingTimeout =>
      cases hstep
      refine h.move_handler hhandlers (fun hpoint => ?_) (hset _) (fun hpoint => ?_) hmove rfl
        hrunning (fun hne => hne) (fun count hcount => ?_)
      · cases hpoint
      · cases hpoint
      · cases hcount
  | loadingCount =>
      cases hstep
      refine h.move_handler hhandlers (fun hpoint => ?_) (hset _) (fun hpoint => ?_) hmove rfl
        hrunning (fun hne => hne) (fun count hcount => ?_)
      · cases hpoint
      · cases hpoint
      · -- the snapshot: from here on the counter can only fall
        obtain rfl := Option.some.inj hcount
        exact ⟨hsteady _ hhandler rfl, UInt64.le_refl _⟩
  | storingPeak count =>
      cases hstep
      have hmem : ⟨.sigterm, .storingPeak count⟩ ∈ s.handlers := List.mem_of_getElem? hhandler
      refine h.move_handler hhandlers (fun hpoint => ?_) (hset _) (fun hpoint => ?_) hmove rfl
        hrunning (fun hne => hne) fun count' hcount => h.snapshot _ hmem count' hcount
      · cases hpoint
      · cases hpoint
  | finished => cases hstep

/-- Every step keeps the invariant, under the conditions on the signals and the snapshot. -/
theorem DrainInv.step {label : Label} (h : DrainInv s)
    (hadmits : OneSigterm s label ∧ SteadySnapshot s label) (hnext : next s label = some s') :
    DrainInv s' := by
  obtain ⟨hone, hsteady⟩ := hadmits
  have hmove := (next_moves hnext).2
  cases label with
  | deliver sig =>
      obtain ⟨hnone, rfl⟩ := hone
      cases hnext
      have hstate : s.ctx.state = .running := by
        rw [h.running_iff, hnone]
        exact fun _ hmem => absurd hmem List.not_mem_nil
      have hdrains : s.main.drains = false := Bool.eq_false_iff.mpr fun hdrains =>
        h.drains hdrains hstate
      refine ⟨h.requests.move hmove, Or.inr ⟨.loadingState, ?_, nofun⟩, iff_of_true hstate ?_,
        h.drains, ?_, figures_of_not_reports (reports_of_not_drains hdrains)⟩
      · rw [hnone]
        rfl
      · rw [hnone]
        intro handler hmem
        rw [List.mem_singleton.mp hmem]
        rfl
      · rw [hnone]
        intro handler hmem
        rw [List.mem_singleton.mp hmem]
        exact nofun
  | main answers => exact h.main_step hsteady hnext
  | task t answers =>
      simp only [next] at hnext
      split at hnext
      · rename_i task ht
        exact h.task_step ht hnext
      · cases hnext
  | handler i answers =>
      simp only [next] at hnext
      split at hnext
      · rename_i handler hhandler
        exact h.handler_step hsteady hhandler hnext
      · cases hnext

end Steps

/-! ## The figures -/

/-- At the start no signal has come. -/
theorem DrainInv.init (limiter : Limiter) (timeout : Int) :
    DrainInv (initializeServer limiter timeout) where
  requests := .init limiter timeout
  one := Or.inl rfl
  running_iff := iff_of_true rfl fun _ hmem => absurd hmem List.not_mem_nil
  drains := nofun
  snapshot _ hmem := absurd hmem List.not_mem_nil
  figures := figures_of_not_reports rfl

/-- For every interleaving of the accept loop, the client tasks, one handler run for `SIGTERM` and
the drain whose steps all meet the condition: what is left does not exceed the peak, so that the
subtraction does not wrap around, and the figures reported add up to the peak. -/
theorem drain_figures (limiter : Limiter) (timeout : Int) {labels : List Label} {s : State}
    (hrun : run next (initializeServer limiter timeout) labels = some s)
    (hone : Throughout next OneSigterm (initializeServer limiter timeout) labels)
    (hsteady : Throughout next SteadySnapshot (initializeServer limiter timeout) labels) :
    (∀ peak remaining, s.main = .storingCompleted peak remaining → remaining ≤ peak) ∧
      ∀ peak, s.main = .reporting peak → s.ctx.peakInFlight = peak ∧
        s.ctx.completed.toNat + s.ctx.forced.toNat = peak.toNat := by
  have hfigures := (run_invariant (fun _ _ _ h hadmits hnext => DrainInv.step h hadmits hnext)
    (.init limiter timeout) (throughout_and hone hsteady) hrun).figures
  rw [State.Figures] at hfigures
  constructor
  · intro peak remaining hmain
    rw [hmain] at hfigures
    exact hfigures.2
  · intro peak hmain
    rw [hmain] at hfigures
    obtain ⟨hstored, hle, hcompleted⟩ := hfigures
    refine ⟨hstored.2, ?_⟩
    rw [hcompleted, UInt64.toNat_sub_of_le _ _ hle]
    exact Nat.sub_add_cancel (UInt64.le_iff_toNat_le.mp hle)

/-- The main thread accepts a connection, up to its `atomic_fetch_add`. -/
def admission : List Label :=
  [.main {}, .main { ok := false }, .main { accept := .client 7 }, .main {}, .main { ns := 1 },
    .main {}, .main {}, .main {}]

/-- It counts the connection and passes it to the thread pool. -/
def dispatch : List Label := [.main {}, .main {}, .main {}, .main {}]

/-- `SIGTERM` is delivered and handled. -/
def sigtermHandled : List Label :=
  [.deliver .sigterm, .handler 0 {}, .handler 0 {}, .handler 0 {}, .handler 0 {}, .handler 0 {},
    .handler 0 {}]

/-- The main thread leaves the loop and drains, and the deadline passes. -/
def timedOutDrain : List Label :=
  [.main {}, .main {}, .main {}, .main { clock := .ofSec 31 }, .main {}, .main {},
    .main {}, .main {}, .main {}]

/-- `SIGTERM` arrives when the connection is counted: it is reported as forced. -/
theorem sigterm_after_dispatch :
    ∃ s, run next smallServer (admission ++ dispatch ++ sigtermHandled ++ timedOutDrain) = some s ∧
      s.main = .reporting 1 ∧ s.ctx.completed.toNat + s.ctx.forced.toNat = 1 := by
  obtain ⟨s, hrun, hmain⟩ : ∃ s,
      run next smallServer (admission ++ dispatch ++ sigtermHandled ++ timedOutDrain) = some s ∧
        s.main = .reporting 1 := exists_final (by decide +kernel)
  have hfigures := drain_figures _ 30 hrun (by decide +kernel) (by decide +kernel)
  exact ⟨s, hrun, hmain, (hfigures.2 1 hmain).2⟩

/-- `SIGTERM` arrives between the test of the state and the `atomic_fetch_add`: the peak is 0, one
request is left, and 2^64 - 1 are reported as completed. -/
theorem sigterm_before_count :
    Throughout next OneSigterm smallServer
        (admission ++ sigtermHandled ++ dispatch ++ timedOutDrain) ∧
      ∃ s, run next smallServer (admission ++ sigtermHandled ++ dispatch ++ timedOutDrain) =
          some s ∧
        s.main = .reporting 0 ∧ s.ctx.peakInFlight = 0 ∧ s.ctx.forced = 1 ∧
        s.ctx.completed.toNat = 2 ^ 64 - 1 :=
  ⟨by decide +kernel, exists_final (by decide +kernel)⟩

end Emme.Lifecycle
