import Mathlib.Data.List.Basic
import Mathlib.Tactic.Common

/-!
# Runs of machines

A machine that answers every call is a function `step : σ → ι → ω × σ`. `after` is the state a list
of calls leads to, `trace` pairs every call with its answer, and `Along` says that a condition holds
of every call at its state. A machine whose steps may be disabled is a function `step : σ → ι →
Option σ`; `run` executes a list of labels and fails at the first disabled one.

Below are the induction rules for both: invariants, simulations, and conditions on steps that amount
to properties of all states on the way.
-/

namespace Execution

variable {σ ι ω : Type*}

/-! ## Machines that answer every call -/

/-- The state a list of calls leads to. -/
def after (step : σ → ι → ω × σ) : σ → List ι → σ
  | state, [] => state
  | state, call :: calls => after step (step state call).2 calls

/-- Every call of the list together with the answer it received, in order. -/
def trace (step : σ → ι → ω × σ) : σ → List ι → List (ι × ω)
  | _, [] => []
  | state, call :: calls => (call, (step state call).1) :: trace step (step state call).2 calls

/-- The condition holds of every call of the list at the state in which that call is made. -/
def Along (step : σ → ι → ω × σ) (admits : σ → ι → Prop) : σ → List ι → Prop
  | _, [] => True
  | state, call :: calls => admits state call ∧ Along step admits (step state call).2 calls

variable {step : σ → ι → ω × σ} {admits : σ → ι → Prop}

/-- `Along` is decidable when the condition is: the run visits finitely many states. -/
instance decidableAlong [∀ state call, Decidable (admits state call)] :
    ∀ state calls, Decidable (Along step admits state calls)
  | _, [] => isTrue trivial
  | state, call :: calls =>
      haveI := decidableAlong (step state call).2 calls
      inferInstanceAs (Decidable (_ ∧ _))

/-- No call changes nothing. -/
@[simp] theorem after_nil (state : σ) : after step state [] = state := rfl

/-- The state after a call and those behind it. -/
@[simp] theorem after_cons (state : σ) (call : ι) (calls : List ι) :
    after step state (call :: calls) = after step (step state call).2 calls := rfl

/-- The state after two parts is that after the second, from where the first has led. -/
theorem after_append (state : σ) (first second : List ι) :
    after step state (first ++ second) = after step (after step state first) second := by
  induction first generalizing state with
  | nil => rfl
  | cons call calls ih => exact ih (step state call).2

/-- The answer to a call stands before the answers to those behind it. -/
@[simp] theorem trace_cons (state : σ) (call : ι) (calls : List ι) :
    trace step state (call :: calls) =
      (call, (step state call).1) :: trace step (step state call).2 calls := rfl

/-- The answers to two parts are those to the first and then those to the second. -/
theorem trace_append (state : σ) (first second : List ι) :
    trace step state (first ++ second) =
      trace step state first ++ trace step (after step state first) second := by
  induction first generalizing state with
  | nil => rfl
  | cons call calls ih =>
      simp only [List.cons_append, trace_cons, after_cons, ih]

variable {calls : List ι} {safe : σ → Prop}

/-- A call of a run is answered as after the calls before it. -/
theorem trace_split {state : σ} {before later : List (ι × ω)} {call : ι} {answer : ω}
    (h : trace step state calls = before ++ (call, answer) :: later) :
    before = trace step state (before.map Prod.fst) ∧
      answer = (step (after step state (before.map Prod.fst)) call).1 := by
  induction before generalizing state calls with
  | nil =>
      cases calls with
      | nil => cases h
      | cons first rest =>
          cases h
          exact ⟨rfl, rfl⟩
  | cons event before ih =>
      cases calls with
      | nil => cases h
      | cons first rest =>
          rw [trace_cons, List.cons_append, List.cons.injEq] at h
          obtain ⟨rfl, hrest⟩ := h
          obtain ⟨hbefore, hanswer⟩ := ih hrest
          exact ⟨congrArg _ hbefore, hanswer⟩

/-- An admitted run splits into its admitted parts. -/
theorem along_append {state : σ} {first second : List ι} :
    Along step admits state (first ++ second) ↔
      Along step admits state first ∧ Along step admits (after step state first) second := by
  induction first generalizing state with
  | nil => simp [Along]
  | cons call calls ih => simp only [List.cons_append, Along, after_cons, ih, and_assoc]

/-- What every admitted call guarantees of its answer holds along every admitted run. -/
theorem trace_forall {good : ι × ω → Prop}
    (hstep : ∀ state call, admits state call → good (call, (step state call).1)) {state : σ}
    (hrun : Along step admits state calls) : ∀ entry ∈ trace step state calls, good entry := by
  induction calls generalizing state with
  | nil => exact fun entry hentry => absurd hentry List.not_mem_nil
  | cons call calls ih =>
      intro entry hentry
      rcases List.mem_cons.mp hentry with rfl | hentry
      · exact hstep state call hrun.1
      · exact ih hrun.2 entry hentry

/-- What every admitted call preserves, every admitted run preserves. -/
theorem after_invariant {inv : σ → Prop}
    (hstep : ∀ state call, inv state → admits state call → inv (step state call).2) {state : σ}
    (hstart : inv state) (hrun : Along step admits state calls) : inv (after step state calls) := by
  induction calls generalizing state with
  | nil => exact hstart
  | cons call calls ih => exact ih (hstep state call hstart hrun.1) hrun.2

/-- What every call preserves, every run preserves. -/
theorem after_preserves {inv : σ → Prop}
    (hstep : ∀ state call, inv state → inv (step state call).2)
    {state : σ} (hstart : inv state) (calls : List ι) : inv (after step state calls) := by
  induction calls generalizing state with
  | nil => exact hstart
  | cons call calls ih => exact ih (hstep state call hstart)

/-- If from a safe state exactly the admitted calls lead to a safe state, the states a run passes
through are all safe if and only if its calls are all admitted. -/
theorem forall_after_iff_along {valid : ι → Prop} {inv : σ → Prop}
    (hinv : ∀ state call, valid call → inv state → inv (step state call).2)
    (hstep : ∀ state call, valid call → inv state → safe state →
      (safe (step state call).2 ↔ admits state call)) {state : σ}
    (hvalid : ∀ call ∈ calls, valid call) (hstart : inv state) (hsafe : safe state) :
    (∀ done, done <+: calls → safe (after step state done)) ↔ Along step admits state calls := by
  induction calls generalizing state with
  | nil =>
      refine iff_of_true (fun done hdone => ?_) trivial
      rw [List.prefix_nil.mp hdone]
      exact hsafe
  | cons call calls ih =>
      have hcall := hvalid call List.mem_cons_self
      have hrest := fun hnext => ih (fun c hc => hvalid c (List.mem_cons_of_mem call hc))
        (hinv state call hcall hstart) hnext
      constructor
      · intro hall
        have hnext := hall [call] (List.prefix_append [call] calls)
        refine ⟨(hstep state call hcall hstart hsafe).mp hnext, (hrest hnext).mp ?_⟩
        exact fun done hdone => hall (call :: done) (List.cons_prefix_cons.mpr ⟨rfl, hdone⟩)
      · rintro ⟨hadmits, halong⟩ done hdone
        have hnext := (hstep state call hcall hstart hsafe).mpr hadmits
        cases done with
        | nil => exact hsafe
        | cons first done =>
            obtain ⟨rfl, htail⟩ := List.cons_prefix_cons.mp hdone
            exact (hrest hnext).mpr halong done htail

/-- Calls outside `visible` do not show: from related states, the answers to the visible calls of a
run are those of the run made of these alone. The relation may speak about the past of the visible
run, all of whose beginnings are `sound`; visible calls on both sides and admitted hidden calls on
the right keep it. -/
theorem trace_filter_visible {visible : ι → Bool} {sound : List (ι × ω) → Prop}
    {related : List (ι × ω) → σ → σ → Prop}
    (hvisible : ∀ past left right call, related past left right → visible call = true →
      sound (past ++ [(call, (step left call).1)]) →
      (step right call).1 = (step left call).1 ∧
        related (past ++ [(call, (step left call).1)]) (step left call).2 (step right call).2)
    (hhidden : ∀ past left right call, related past left right → visible call = false →
      admits right call → related past left (step right call).2) {past : List (ι × ω)}
    {left right : σ} (hstart : related past left right)
    (hsound : ∀ events, events <+: past ++ trace step left (calls.filter visible) → sound events)
    (hrun : Along step admits right calls) :
    (trace step right calls).filter (fun event => visible event.1) =
        trace step left (calls.filter visible) ∧
      related (past ++ trace step left (calls.filter visible))
        (after step left (calls.filter visible)) (after step right calls) := by
  induction calls generalizing past left right with
  | nil => exact ⟨rfl, by simpa [trace] using hstart⟩
  | cons call calls ih =>
      cases hcall : visible call with
      | true =>
          have hevent : (trace step right (call :: calls)).filter (fun event => visible event.1) =
              (call, (step right call).1) ::
                (trace step (step right call).2 calls).filter (fun event => visible event.1) :=
            List.filter_cons_of_pos hcall
          rw [hevent, after_cons]
          rw [List.filter_cons_of_pos hcall, trace_cons] at hsound ⊢
          rw [after_cons]
          have hassoc : past ++ (call, (step left call).1) ::
                trace step (step left call).2 (calls.filter visible) =
              past ++ [(call, (step left call).1)] ++
                trace step (step left call).2 (calls.filter visible) := by simp
          rw [hassoc] at hsound ⊢
          obtain ⟨hanswer, hnext⟩ :=
            hvisible past left right call hstart hcall (hsound _ (List.prefix_append _ _))
          obtain ⟨hrest, hend⟩ := ih hnext hsound hrun.2
          exact ⟨by rw [hanswer, hrest], hend⟩
      | false =>
          have hnot : ¬ visible call = true := by simp [hcall]
          have hevent : (trace step right (call :: calls)).filter (fun event => visible event.1) =
              (trace step (step right call).2 calls).filter (fun event => visible event.1) :=
            List.filter_cons_of_neg hnot
          rw [List.filter_cons_of_neg hnot] at hsound ⊢
          rw [hevent, after_cons]
          exact ih (hhidden past left right call hstart hcall hrun.1) hsound hrun.2

/-- If each call is answered as on a related state of another machine, so is each call of a
run. -/
theorem trace_simulates {τ κ : Type*} {model : τ → κ → ω × τ} {view : ι → κ}
    {related : σ → τ → Prop}
    (hstep : ∀ left right call, related left right →
      (step left call).1 = (model right (view call)).1 ∧
        related (step left call).2 (model right (view call)).2)
    {left : σ} {right : τ} (hstart : related left right) (calls : List ι) :
    (trace step left calls).map Prod.snd = (trace model right (calls.map view)).map Prod.snd ∧
      related (after step left calls) (after model right (calls.map view)) := by
  induction calls generalizing left right with
  | nil => exact ⟨rfl, hstart⟩
  | cons call calls ih =>
      obtain ⟨hanswer, hnext⟩ := hstep left right call hstart
      obtain ⟨hrest, hend⟩ := ih hnext
      simp only [trace_cons, List.map_cons, after_cons, hanswer, hrest, hend, and_self]

/-! ## Machines whose steps may be disabled -/

section Partial

variable {next : σ → ι → Option σ}

/-- Execute the labels in order; a disabled label stops the run. -/
def run (next : σ → ι → Option σ) : σ → List ι → Option σ
  | state, [] => some state
  | state, label :: labels => next state label >>= fun following => run next following labels

/-- The condition holds of every label of the list at the state in which it is executed. -/
def Throughout (next : σ → ι → Option σ) (admits : σ → ι → Prop) : σ → List ι → Prop
  | _, [] => True
  | state, label :: labels =>
      admits state label ∧
        ∀ following, next state label = some following → Throughout next admits following labels

/-- `Throughout` is decidable when the condition is. -/
instance decidableThroughout {admits : σ → ι → Prop}
    [∀ state label, Decidable (admits state label)] :
    ∀ state labels, Decidable (Throughout next admits state labels)
  | _, [] => isTrue trivial
  | state, label :: labels =>
      match h : next state label with
      | none => decidable_of_iff (admits state label) (by simp [Throughout, h])
      | some following =>
          haveI : Decidable (Throughout next admits following labels) :=
            decidableThroughout following labels
          decidable_of_iff (admits state label ∧ Throughout next admits following labels)
            (by simp [Throughout, h])

variable {labels : List ι}

/-- A run takes its first step and goes on from there. -/
theorem run_cons_eq_some {state final : σ} {label : ι} :
    run next state (label :: labels) = some final ↔
      ∃ following, next state label = some following ∧ run next following labels = some final := by
  simp only [run, bind, Option.bind_eq_some_iff]

/-- A run over two parts is a run over the first and then one over the second. -/
theorem run_append (state : σ) (first second : List ι) :
    run next state (first ++ second) =
      run next state first >>= fun middle => run next middle second := by
  induction first generalizing state with
  | nil => rfl
  | cons label labels ih =>
      simp only [List.cons_append, run]
      cases next state label with
      | none => rfl
      | some following => exact ih following

/-- What every step preserves, every run preserves. -/
theorem run_preserves {inv : σ → Prop}
    (hstep : ∀ state label following, inv state → next state label = some following →
      inv following) {state final : σ} (hstart : inv state)
    (hrun : run next state labels = some final) : inv final := by
  induction labels generalizing state with
  | nil =>
      cases hrun
      exact hstart
  | cons label labels ih =>
      obtain ⟨following, hnext, hrest⟩ := run_cons_eq_some.mp hrun
      exact ih (hstep state label following hstart hnext) hrest

variable {admits : σ → ι → Prop}

/-- What every admitted step preserves, every admitted run preserves. -/
theorem run_invariant {inv : σ → Prop}
    (hstep : ∀ state label following, inv state → admits state label →
      next state label = some following → inv following) {state final : σ} (hstart : inv state)
    (hadmits : Throughout next admits state labels) (hrun : run next state labels = some final) :
    inv final := by
  induction labels generalizing state with
  | nil =>
      cases hrun
      exact hstart
  | cons label labels ih =>
      obtain ⟨following, hnext, hrest⟩ := run_cons_eq_some.mp hrun
      exact ih (hstep state label following hstart hadmits.1 hnext) (hadmits.2 following hnext)
        hrest

/-- If each admitted step from related states is matched by a run of another machine, which may be
empty, so is each admitted run. -/
theorem run_simulates {τ κ : Type*} {model : τ → κ → Option τ} {related : σ → τ → Prop}
    (hstep : ∀ state label following view, related state view → admits state label →
      next state label = some following →
      ∃ steps seen, run model view steps = some seen ∧ related following seen) {state final : σ}
    {view : τ} (hstart : related state view) (hadmits : Throughout next admits state labels)
    (hrun : run next state labels = some final) :
    ∃ steps seen, run model view steps = some seen ∧ related final seen := by
  induction labels generalizing state view with
  | nil =>
      cases hrun
      exact ⟨[], view, rfl, hstart⟩
  | cons label labels ih =>
      obtain ⟨following, hnext, hrest⟩ := run_cons_eq_some.mp hrun
      obtain ⟨first, middle, hfirst, hmiddle⟩ :=
        hstep state label following view hstart hadmits.1 hnext
      obtain ⟨second, seen, hsecond, hseen⟩ := ih hmiddle (hadmits.2 following hnext) hrest
      refine ⟨first ++ second, seen, ?_, hseen⟩
      rw [run_append, hfirst]
      exact hsecond

variable {meets : σ → ι → Prop}

/-- Two conditions on the steps of a run, together. -/
theorem throughout_and {state : σ} (hadmits : Throughout next admits state labels)
    (hmeets : Throughout next meets state labels) :
    Throughout next (fun state label => admits state label ∧ meets state label) state labels := by
  induction labels generalizing state with
  | nil => trivial
  | cons label labels ih =>
      exact ⟨⟨hadmits.1, hmeets.1⟩, fun following hnext =>
        ih (hadmits.2 following hnext) (hmeets.2 following hnext)⟩

/-- A condition on the steps of a run gives every weaker one. -/
theorem throughout_mono (h : ∀ state label, admits state label → meets state label) {state : σ}
    (hadmits : Throughout next admits state labels) : Throughout next meets state labels := by
  induction labels generalizing state with
  | nil => trivial
  | cons label labels ih =>
      exact ⟨h state label hadmits.1, fun following hnext => ih (hadmits.2 following hnext)⟩

/-- Under an invariant that every admitted step preserves, a condition that every admitted step
meets is met throughout. -/
theorem throughout_of_invariant {inv : σ → Prop}
    (hstep : ∀ state label following, inv state → admits state label →
      next state label = some following → inv following)
    (hmeets : ∀ state label, inv state → admits state label → meets state label) {state : σ}
    (hstart : inv state) (hadmits : Throughout next admits state labels) :
    Throughout next meets state labels := by
  induction labels generalizing state with
  | nil => trivial
  | cons label labels ih =>
      refine ⟨hmeets state label hstart hadmits.1, fun following hnext => ?_⟩
      exact ih (hstep state label following hstart hadmits.1 hnext) (hadmits.2 following hnext)

/-- The same for an invariant that every step preserves. -/
theorem throughout_of_preserved {inv : σ → Prop}
    (hstep : ∀ state label following, inv state → next state label = some following →
      inv following) (hmeets : ∀ state label, inv state → meets state label) {state : σ}
    (hstart : inv state) : Throughout next meets state labels := by
  induction labels generalizing state with
  | nil => trivial
  | cons label labels ih =>
      exact ⟨hmeets state label hstart, fun following hnext =>
        ih (hstep state label following hstart hnext)⟩

/-- The property holds of every state on the way, the first and the last included. -/
def Always (next : σ → ι → Option σ) (safe : σ → Prop) (state : σ) (labels : List ι) : Prop :=
  ∀ front, front <+: labels → ∀ final, run next state front = some final → safe final

/-- A run without steps is safe if its state is. -/
theorem always_nil {state : σ} : Always next safe state [] ↔ safe state := by
  constructor
  · exact fun h => h [] List.nil_prefix state rfl
  · intro hsafe front hfront final hrun
    obtain rfl := List.prefix_nil.mp hfront
    cases hrun
    exact hsafe

/-- A run is safe if its first state and the rest of it are. -/
theorem always_cons {state : σ} {label : ι} :
    Always next safe state (label :: labels) ↔
      safe state ∧
        ∀ following, next state label = some following → Always next safe following labels := by
  constructor
  · refine fun h => ⟨h [] List.nil_prefix state rfl, fun following hnext front hfront final hrun =>
      h (label :: front) (List.cons_prefix_cons.mpr ⟨rfl, hfront⟩) final ?_⟩
    exact run_cons_eq_some.mpr ⟨following, hnext, hrun⟩
  · rintro ⟨hsafe, hrest⟩ front hfront final hrun
    cases front with
    | nil =>
        cases hrun
        exact hsafe
    | cons first front =>
        obtain ⟨rfl, hshorter⟩ := List.cons_prefix_cons.mp hfront
        obtain ⟨following, hnext, hrun⟩ := run_cons_eq_some.mp hrun
        exact hrest following hnext front hshorter final hrun

/-- Under an invariant that every admitted step preserves and that is safe, all states on the way of
an admitted run are safe. -/
theorem always_of_throughout {inv : σ → Prop}
    (hstep : ∀ state label following, inv state → admits state label →
      next state label = some following → inv following) (hsafe : ∀ state, inv state → safe state)
    {state : σ} (hstart : inv state) (hadmits : Throughout next admits state labels) :
    Always next safe state labels := by
  induction labels generalizing state with
  | nil => exact always_nil.mpr (hsafe state hstart)
  | cons label labels ih =>
      refine always_cons.mpr ⟨hsafe state hstart, fun following hnext => ?_⟩
      exact ih (hstep state label following hstart hadmits.1 hnext) (hadmits.2 following hnext)

/-- If the condition says of each step whether it leads from a safe state to a safe one, then all
states on the way are safe exactly if all steps meet the condition. -/
theorem always_iff_throughout (inv : σ → Prop)
    (hinv : ∀ state label following, inv state → next state label = some following →
      inv following) (hstep : ∀ state label following, inv state → safe state →
      next state label = some following → (safe following ↔ admits state label))
    (hdisabled : ∀ state label, next state label = none → admits state label) {state : σ}
    (hstart : inv state) (hsafe : safe state) :
    Always next safe state labels ↔ Throughout next admits state labels := by
  induction labels generalizing state with
  | nil => exact always_nil.trans (iff_true_intro hsafe)
  | cons label labels ih =>
      rw [always_cons, Throughout]
      constructor
      · rintro ⟨-, hrest⟩
        constructor
        · cases hnext : next state label with
          | none => exact hdisabled state label hnext
          | some following =>
              exact (hstep state label following hstart hsafe hnext).mp
                (hrest following hnext [] List.nil_prefix following rfl)
        · intro following hnext
          have hfollowing := hrest following hnext [] List.nil_prefix following rfl
          exact (ih (hinv state label following hstart hnext) hfollowing).mp
            (hrest following hnext)
      · rintro ⟨hadmits, hrest⟩
        refine ⟨hsafe, fun following hnext => ?_⟩
        have hfollowing := (hstep state label following hstart hsafe hnext).mpr hadmits
        exact (ih (hinv state label following hstart hnext) hfollowing).mpr (hrest following hnext)

/-- A run that ends in a state with a decidable property, by evaluating both. -/
theorem exists_final {property : σ → Prop} [DecidablePred property] {state : σ}
    (h : (run next state labels).any (fun final => decide (property final)) = true) :
    ∃ final, run next state labels = some final ∧ property final := by
  obtain ⟨final, hrun, hfinal⟩ := (Option.any_eq_true _ _).mp h
  exact ⟨final, hrun, of_decide_eq_true hfinal⟩

/-- A run all of whose steps are enabled in the states of an invariant that they preserve. -/
theorem run_total {inv : σ → Prop} {state : σ} (hstep : ∀ label ∈ labels, ∀ state, inv state →
      ∃ following, next state label = some following ∧ inv following) (hstart : inv state) :
    ∃ final, run next state labels = some final ∧ inv final := by
  induction labels generalizing state with
  | nil => exact ⟨state, rfl, hstart⟩
  | cons label labels ih =>
      obtain ⟨following, hnext, hfollowing⟩ := hstep label List.mem_cons_self state hstart
      obtain ⟨final, hrun, hfinal⟩ :=
        ih (fun label hlabel => hstep label (List.mem_cons_of_mem _ hlabel)) hfollowing
      exact ⟨final, run_cons_eq_some.mpr ⟨following, hnext, hrun⟩, hfinal⟩

/-- A counted loop whose body succeeds and moves the invariant to the next index runs to its end. -/
theorem run_counted {body : σ → Nat → Option σ} {inv : Nat → σ → Prop} {low count : Nat}
    (hstep : ∀ i state, low ≤ i → i < low + count → inv i state →
      ∃ following, body state i = some following ∧ inv (i + 1) following)
    {state : σ} (hstart : inv low state) :
    ∃ final, run body state (List.range' low count) = some final ∧ inv (low + count) final := by
  induction count generalizing low state with
  | zero => exact ⟨state, rfl, hstart⟩
  | succ count ih =>
      obtain ⟨following, hbody, hfollowing⟩ := hstep low state (Nat.le_refl _) (by omega) hstart
      have hrest (i : Nat) (state : σ) (hlow : low + 1 ≤ i) (hhigh : i < low + 1 + count)
          (hinv : inv i state) :=
        hstep i state (Nat.le_of_succ_le hlow) (by omega) hinv
      obtain ⟨final, hrun, hfinal⟩ := ih hrest hfollowing
      rw [Nat.add_right_comm] at hfinal
      exact ⟨final, run_cons_eq_some.mpr ⟨following, hbody, hrun⟩, hfinal⟩

end Partial

end Execution
