import Emme.Lib.Execution
import Emme.Lifecycle.Machine

/-!
# The order of the shutdown states

`handle_signal` loads the state and stores a new one in two steps. A handler run for `SIGTERM`
that has found `RUNNING` stores `DRAINING` whatever has happened since, so the state falls back
from `FORCED` exactly if `FORCED` is stored between the two (`state_rises_iff`).
-/

namespace Emme.Lifecycle

open Emme.IpLimiter Emme.Router Execution Threads

/-! ## What one step does to the state -/

/-- The value of the enumerator of `shutdown_state_t`. -/
def shutdownValue : ShutdownState → Nat
  | .running => 0
  | .draining => 1
  | .forced => 2

/-- The step stores `FORCED`: in a handler run for `SIGINT`, or in the drain after its
deadline. -/
def StoresForced (s : State) : Label → Prop
  | .main _ => s.main = .forcing
  | .handler h _ => ∃ handler ∈ s.handlers[h]?, handler.point = .storingForced
  | _ => False

instance (s : State) : ∀ label, Decidable (StoresForced s label)
  | .deliver _ => isFalse not_false
  | .task _ _ => isFalse not_false
  | .main _ => inferInstanceAs (Decidable (_ = _))
  | .handler _ _ => inferInstanceAs (Decidable (∃ handler ∈ _, _))

/-- The handler run has found `RUNNING` and not yet stored `DRAINING`. -/
def Handler.pending (handler : Handler) : Prop := handler.point = .storingDraining

instance (handler : Handler) : Decidable handler.pending := inferInstanceAs (Decidable (_ = _))

/-- What a step does to the state. -/
inductive StateMove (s : State) (label : Label) (s' : State) : Prop where
  | keep (hstate : s'.ctx.state = s.ctx.state)
  | force (hforces : StoresForced s label) (hstate : s'.ctx.state = .forced)
  | drain (h : Nat) (answers : Answers) (handler : Handler) (hlabel : label = .handler h answers)
      (hhandler : s.handlers[h]? = some handler) (hpending : handler.pending)
      (hstate : s'.ctx.state = .draining)

/-- The handler runs after a step of another thread, or of one of them. A run becomes pending
only by loading `RUNNING`. -/
inductive HandlersMove (s : State) (label : Label) (s' : State) : Prop where
  | keep (hhandlers : s'.handlers = s.handlers)
  | deliver (sig : Signal) (hlabel : label = .deliver sig)
      (hhandlers : s'.handlers = s.handlers ++ [⟨sig, .loadingState⟩])
  | step (h : Nat) (answers : Answers) (handler new : Handler)
      (hlabel : label = .handler h answers) (hhandler : s.handlers[h]? = some handler)
      (hhandlers : s'.handlers = s.handlers.set h new)
      (hpending : new.pending → s.ctx.state = .running)
      (hforces : handler.point = .storingForced → ¬ new.pending)

variable {handler : Handler} {i : Nat}

section Steps

variable {s s' : State}

variable {answers : Answers}

/-- The main thread stores `FORCED` after the deadline and leaves the handler runs alone. -/
theorem step_main_shutdown (h : stepMain s answers = some s') :
    s'.handlers = s.handlers ∧ s'.ctx.peakInFlight = s.ctx.peakInFlight ∧
      (s'.ctx.state = s.ctx.state ∨ s.main = .forcing ∧ s'.ctx.state = .forced) := by
  cases hmain : s.main with
  | forcing =>
      simp only [stepMain, hmain, Option.some.injEq] at h
      subst h
      exact ⟨rfl, rfl, Or.inr ⟨rfl, rfl⟩⟩
  | housekeeping =>
      simp only [stepMain, hmain, Option.some.injEq] at h
      subst h
      cases answers.ok <;> exact ⟨rfl, rfl, Or.inl rfl⟩
  | accepting | loadingState | checking | dispatching =>
      simp only [stepMain, hmain] at h
      split at h <;> cases h <;> exact ⟨rfl, rfl, Or.inl rfl⟩
  | allocating =>
      simp only [stepMain, hmain] at h
      split at h
      · split at h <;> cases h
        exact ⟨rfl, rfl, Or.inl rfl⟩
      · cases h
        exact ⟨rfl, rfl, Or.inl rfl⟩
  | finished =>
      simp only [stepMain, hmain] at h
      cases h
  | _ =>
      simp only [stepMain, hmain, Option.some.injEq] at h
      subst h
      exact ⟨rfl, rfl, Or.inl rfl⟩

/-- A task leaves the main thread, the handler runs and all of the shutdown context but the
counter alone. -/
theorem step_task_shutdown {t : Nat} {task : Task} (h : stepTask s t task answers = some s') :
    s'.handlers = s.handlers ∧ s'.main = s.main ∧
      s'.ctx = { s.ctx with inFlightRequests := s'.ctx.inFlightRequests } := by
  obtain ⟨client, point⟩ := task
  cases point <;> cases h <;> exact ⟨rfl, rfl, rfl⟩

/-- A step of a handler run. -/
theorem step_handler_shutdown {h : Nat} (hhandler : s.handlers[h]? = some handler)
    (hstep : stepHandler s h handler answers = some s') :
    StateMove s (.handler h answers) s' ∧ HandlersMove s (.handler h answers) s' := by
  obtain ⟨sig, point⟩ := handler
  have hmove {point' : HandlerPoint} {s' : State}
      (hhandlers : s'.handlers = s.handlers.set h ⟨sig, point'⟩)
      (hpoint : point' = .storingDraining → s.ctx.state = .running ∧ point = .loadingState) :
      HandlersMove s (.handler h answers) s' := by
    refine .step h answers _ _ rfl hhandler hhandlers (fun hpending => (hpoint hpending).1) ?_
    rintro rfl hpending
    cases (hpoint hpending).2
  cases point with
  | loadingState =>
      simp only [stepHandler] at hstep
      split at hstep
      · cases hstep
        exact ⟨.keep rfl, hmove rfl fun hpoint => by cases hpoint⟩
      · rename_i hstate
        cases sig <;> cases hstep <;>
          exact ⟨.keep rfl, hmove rfl fun _ => ⟨not_not.mp hstate, rfl⟩⟩
  | storingForced =>
      cases hstep
      exact ⟨.force ⟨_, hhandler, rfl⟩ rfl, hmove rfl fun hpoint => by cases hpoint⟩
  | storingDraining =>
      cases hstep
      exact ⟨.drain h answers _ rfl hhandler rfl rfl, hmove rfl fun hpoint => by cases hpoint⟩
  | finished => cases hstep
  | _ =>
      cases hstep
      exact ⟨.keep rfl, hmove rfl fun hpoint => by cases hpoint⟩

/-- Every step. -/
theorem next_shutdown {label : Label} (h : next s label = some s') :
    StateMove s label s' ∧ HandlersMove s label s' := by
  cases label with
  | deliver sig =>
      cases h
      exact ⟨.keep rfl, .deliver sig rfl rfl⟩
  | main answers =>
      obtain ⟨hhandlers, -, hstate⟩ := step_main_shutdown h
      refine ⟨?_, .keep hhandlers⟩
      rcases hstate with hstate | ⟨hmain, hstate⟩
      · exact .keep hstate
      · exact .force hmain hstate
  | task t answers =>
      simp only [next] at h
      split at h
      · obtain ⟨hhandlers, -, hctx⟩ := step_task_shutdown h
        exact ⟨.keep (by rw [hctx]), .keep hhandlers⟩
      · cases h
  | handler i answers =>
      simp only [next] at h
      split at h
      · rename_i handler hhandler
        exact step_handler_shutdown hhandler h
      · cases h

/-- A step that stores `FORCED` leaves the server in that state. -/
theorem next_forces {label : Label} (hforces : StoresForced s label) (h : next s label = some s') :
    s'.ctx.state = .forced := by
  cases label with
  | deliver sig => cases hforces
  | task t answers => cases hforces
  | main answers =>
      have hmain : s.main = .forcing := hforces
      simp only [next, stepMain, hmain, Option.some.injEq] at h
      subst h
      rfl
  | handler i answers =>
      obtain ⟨⟨sig, point⟩, hhandler, hpoint⟩ := hforces
      cases hpoint
      simp only [next, Option.mem_def.mp hhandler, stepHandler, Option.some.injEq] at h
      subst h
      rfl

/-- The next step of a pending handler run. -/
theorem next_pending (hhandler : s.handlers[i]? = some handler) (hpending : handler.pending)
    (h : next s (.handler i answers) = some s') : s'.ctx.state = .draining := by
  obtain ⟨sig, point⟩ := handler
  cases hpending
  simp only [next, hhandler, stepHandler, Option.some.injEq] at h
  subst h
  rfl

end Steps

/-! ## Runs that never lower the state -/

/-- The step does not lower the state. -/
def Rises (s : State) (label : Label) : Prop :=
  ∀ s', next s label = some s' → shutdownValue s.ctx.state ≤ shutdownValue s'.ctx.state

/-- The step does not store `FORCED` while a handler run is pending. -/
def Undisturbed (s : State) (label : Label) : Prop :=
  StoresForced s label → ∀ handler ∈ s.handlers, ¬ handler.pending

instance (s : State) (label : Label) : Decidable (Undisturbed s label) :=
  inferInstanceAs (Decidable (_ → _))

/-- In the state `FORCED` no handler run is pending. -/
def Calm (s : State) : Prop := s.ctx.state = .forced → ∀ handler ∈ s.handlers, ¬ handler.pending

section Runs

variable {s s' : State} {label : Label}

/-- A calm server stays calm if `FORCED` is not stored while a handler run is pending. -/
theorem Calm.step (hcalm : Calm s) (hundisturbed : Undisturbed s label)
    (h : next s label = some s') : Calm s' := by
  obtain ⟨hstate, hhandlers⟩ := next_shutdown h
  intro hforced
  have hbefore : (s.ctx.state = .forced ∨ StoresForced s label) ∧
      ∀ handler ∈ s.handlers, ¬ handler.pending := by
    cases hstate with
    | keep hstate => exact ⟨Or.inl (hstate ▸ hforced), hcalm (hstate ▸ hforced)⟩
    | force hforces hstate => exact ⟨Or.inr hforces, hundisturbed hforces⟩
    | drain i answers handler hlabel hhandler hpending hstate => cases hstate.symm.trans hforced
  obtain ⟨hcause, hnone⟩ := hbefore
  cases hhandlers with
  | keep hhandlers =>
      rw [hhandlers]
      exact hnone
  | deliver sig hlabel hhandlers =>
      rw [hhandlers]
      intro handler hmem hpending
      rcases List.mem_append.mp hmem with hmem | hmem
      · exact hnone handler hmem hpending
      · rw [List.mem_singleton.mp hmem] at hpending
        cases hpending
  | step i answers old new hlabel hold hhandlers hrunning hforces =>
      rw [hhandlers]
      intro handler hmem hpending
      rcases List.mem_or_eq_of_mem_set hmem with hmem | rfl
      · exact hnone handler hmem hpending
      · -- a run that becomes pending has loaded `RUNNING`
        rcases hcause with hcause | hcause
        · cases hcause.symm.trans (hrunning hpending)
        · rw [hlabel] at hcause
          obtain ⟨other, hother, hpoint⟩ := hcause
          obtain rfl : old = other := Option.some.inj (hold.symm.trans hother)
          exact hforces hpoint hpending

/-- No step of a calm server lowers the state. -/
theorem Calm.rises (hcalm : Calm s) (label : Label) : Rises s label := by
  intro s' h
  cases (next_shutdown h).1 with
  | keep hstate => rw [hstate]
  | force hforces hstate =>
      rw [hstate]
      cases s.ctx.state <;> decide
  | drain i answers handler hlabel hhandler hpending hstate =>
      rw [hstate]
      cases hs : s.ctx.state with
      | running => decide
      | draining => decide
      | forced => exact absurd hpending (hcalm hs handler (List.mem_of_getElem? hhandler))

variable {labels : List Label}

/-- Nor does any step of a run that is undisturbed. -/
theorem rises_of_undisturbed (hcalm : Calm s) (h : Throughout next Undisturbed s labels) :
    Throughout next Rises s labels :=
  throughout_of_invariant (fun _ _ _ hcalm hundisturbed hnext => hcalm.step hundisturbed hnext)
    (fun _ label hcalm _ => hcalm.rises label) hcalm h

/-- A pending handler run stays pending until it stores `DRAINING`. -/
theorem pending_step (hhandler : s.handlers[i]? = some handler) (hpending : handler.pending)
    (h : next s label = some s') : s'.ctx.state = .draining ∨ s'.handlers[i]? = some handler := by
  cases (next_shutdown h).2 with
  | keep hhandlers => exact Or.inr (hhandlers ▸ hhandler)
  | deliver sig hlabel hhandlers =>
      rw [hhandlers, List.getElem?_append_left (List.getElem?_eq_some_iff.mp hhandler).1]
      exact Or.inr hhandler
  | step j answers old new hlabel hold hhandlers hrunning hforces =>
      by_cases hij : j = i
      · subst hij hlabel
        exact Or.inl (next_pending hhandler hpending h)
      · rw [hhandlers, List.getElem?_set_ne hij]
        exact Or.inr hhandler

/-- In the state `FORCED` it stays pending for good, unless the state is lowered. -/
theorem forced_pending_run {final : State} (hforced : s.ctx.state = .forced)
    (hhandler : s.handlers[i]? = some handler) (hpending : handler.pending)
    (hrises : Throughout next Rises s labels) (hrun : run next s labels = some final) :
    final.handlers[i]? = some handler := by
  have hstep (s : State) (label : Label) (s' : State)
      (hinv : s.ctx.state = .forced ∧ s.handlers[i]? = some handler) (hrises : Rises s label)
      (h : next s label = some s') :
      s'.ctx.state = .forced ∧ s'.handlers[i]? = some handler := by
    have hup := hrises s' h
    rw [hinv.1] at hup
    have hforced : s'.ctx.state = .forced := by
      cases hs : s'.ctx.state with
      | running => exact absurd (hs ▸ hup) (by decide)
      | draining => exact absurd (hs ▸ hup) (by decide)
      | forced => rfl
    rcases pending_step hinv.2 hpending h with hdraining | hstays
    · cases hdraining.symm.trans hforced
    · exact ⟨hforced, hstays⟩
  exact (run_invariant hstep ⟨hforced, hhandler⟩ hrises hrun).2

/-- A run that stores `FORCED` while a handler run is pending, and lets that run go on, lowers the
state. -/
theorem undisturbed_of_rises {final : State} (hrun : run next s labels = some final)
    (hfinal : ∀ handler ∈ final.handlers, ¬ handler.pending)
    (hrises : Throughout next Rises s labels) : Throughout next Undisturbed s labels := by
  induction labels generalizing s with
  | nil => trivial
  | cons label labels ih =>
      obtain ⟨following, hnext, hrest⟩ := run_cons_eq_some.mp hrun
      have hrises' := hrises.2 following hnext
      refine ⟨?_, fun other hother => ?_⟩
      · intro hforces handler hmem hpending
        obtain ⟨i, hhandler⟩ := List.mem_iff_getElem?.mp hmem
        have hforced := next_forces hforces hnext
        rcases pending_step hhandler hpending hnext with hdraining | hstays
        · cases hdraining.symm.trans hforced
        · have hlast := forced_pending_run hforced hstays hpending hrises' hrest
          exact hfinal handler (List.mem_of_getElem? hlast) hpending
      · obtain rfl : following = other := Option.some.inj (hnext.symm.trans hother)
        exact ih hrest hrises'

end Runs

/-- For every sequence of signals and every interleaving of the handler runs with each other and
with all threads: if `FORCED` is never stored while a handler run is pending, the state never
decreases; and if every handler run gets past its store, only then. -/
theorem state_rises_iff (limiter : Limiter) (timeout : Int) (labels : List Label) :
    (Throughout next Undisturbed (initializeServer limiter timeout) labels →
      Throughout next Rises (initializeServer limiter timeout) labels) ∧
    ∀ final, run next (initializeServer limiter timeout) labels = some final →
      (∀ handler ∈ final.handlers, ¬ handler.pending) →
      (Throughout next Rises (initializeServer limiter timeout) labels ↔
        Throughout next Undisturbed (initializeServer limiter timeout) labels) := by
  have hcalm : Calm (initializeServer limiter timeout) := fun hforced => nomatch hforced
  exact ⟨rises_of_undisturbed hcalm,
    fun final hrun hfinal => ⟨undisturbed_of_rises hrun hfinal, rises_of_undisturbed hcalm⟩⟩

/-- A server with the smallest limit. -/
def smallServer : State :=
  initializeServer ⟨fun _ => ⟨fun _ => zeroEntry, 0⟩, 1, 0, 0, 0⟩ 30

/-- `SIGTERM` arrives after the handler of `SIGINT` has stored `FORCED`. -/
theorem sigterm_after_sigint :
    ∃ final, run next smallServer
        [.deliver .sigint, .handler 0 {}, .handler 0 {}, .deliver .sigterm, .handler 1 {}] =
          some final ∧ final.ctx.state = .forced ∧
      Throughout next Rises smallServer
        [.deliver .sigint, .handler 0 {}, .handler 0 {}, .deliver .sigterm, .handler 1 {}] := by
  obtain ⟨final, hrun, hforced⟩ : ∃ final, run next smallServer
      [.deliver .sigint, .handler 0 {}, .handler 0 {}, .deliver .sigterm, .handler 1 {}] =
        some final ∧ final.ctx.state = .forced := exists_final (by decide +kernel)
  exact ⟨final, hrun, hforced, (state_rises_iff _ 30 _).1 (by decide +kernel)⟩

/-- `SIGINT` arrives while the handler of `SIGTERM` is between its load and its store. -/
theorem sigint_overwritten :
    ∃ s s', run next smallServer
        [.deliver .sigterm, .handler 0 {}, .deliver .sigint, .handler 1 {}, .handler 1 {}] =
          some s ∧ s.ctx.state = .forced ∧
      next s (.handler 0 {}) = some s' ∧ s'.ctx.state = .draining := by
  obtain ⟨s, hrun, hforced, hpending⟩ : ∃ s, run next smallServer
      [.deliver .sigterm, .handler 0 {}, .deliver .sigint, .handler 1 {}, .handler 1 {}] =
        some s ∧ (s.ctx.state = .forced ∧
          s.handlers = [⟨.sigterm, .storingDraining⟩, ⟨.sigint, .finished⟩]) :=
    exists_final (by decide +kernel)
  have hnext : next s (.handler 0 {}) =
      stepHandler s 0 ⟨.sigterm, .storingDraining⟩ {} := by
    simp only [next, hpending, List.getElem?_cons_zero]
  exact ⟨s, _, hrun, hforced, hnext, rfl⟩

end Emme.Lifecycle
