import Mathlib.Data.List.Count
import Mathlib.Data.List.Basic
import Mathlib.Data.Prod.Basic
import Mathlib.Tactic.Common

/-!
# Logs of resources

A log of what a program does with its resources: each is acquired, used and released. `Clean` says
that every resource acquired is released once and that none is used behind its release. Logs can be
looked at one by one (`clean_append`, `clean_in_turn`).
-/

namespace Resources

variable {κ μ : Type*}

/-- An entry of a log. -/
inductive Event (κ : Type*) where
  | acquire (resource : κ)
  | use (resource : κ)
  | release (resource : κ)
  deriving DecidableEq, Repr

/-- The resource that the entry is about. -/
def Event.subject : Event κ → κ
  | .acquire resource | .use resource | .release resource => resource

/-- The same event for another resource. -/
def Event.map (f : κ → μ) : Event κ → Event μ
  | .acquire resource => .acquire (f resource)
  | .use resource => .use (f resource)
  | .release resource => .release (f resource)

/-- No resource is used behind a release of it. -/
def NeverUsedAfter : List (Event κ) → Prop
  | [] => True
  | .release resource :: log => .use resource ∉ log ∧ NeverUsedAfter log
  | .acquire _ :: log => NeverUsedAfter log
  | .use _ :: log => NeverUsedAfter log

instance NeverUsedAfter.decidable [DecidableEq κ] :
    (log : List (Event κ)) → Decidable (NeverUsedAfter log)
  | [] => isTrue trivial
  | .release resource :: log =>
      have := NeverUsedAfter.decidable log
      inferInstanceAs (Decidable (.use resource ∉ log ∧ NeverUsedAfter log))
  | .acquire _ :: log => NeverUsedAfter.decidable log
  | .use _ :: log => NeverUsedAfter.decidable log

/-- Every resource that is acquired is released once and not used behind its release. -/
structure Clean [DecidableEq κ] (log : List (Event κ)) : Prop where
  once : ∀ resource, .acquire resource ∈ log → log.count (.release resource) = 1
  after : NeverUsedAfter log

/-- A log of uses alone. -/
def uses (resources : List κ) : List (Event κ) := resources.map .use

/-- Uses release nothing. -/
@[simp]
theorem release_not_mem_uses (resource : κ) (resources : List κ) :
    Event.release resource ∉ uses resources := by
  simp [uses]

/-- Uses release nothing, counted. -/
@[simp]
theorem count_release_uses [DecidableEq κ] (resource : κ) (resources : List κ) :
    (uses resources).count (.release resource) = 0 :=
  List.count_eq_zero_of_not_mem (release_not_mem_uses resource resources)

/-- Uses one after the other. -/
theorem uses_append (first second : List κ) :
    uses (first ++ second) = uses first ++ uses second :=
  List.map_append

/-- A log in two parts: nothing that the first releases is used in the second. -/
theorem never_used_after_append {first second : List (Event κ)} :
    NeverUsedAfter (first ++ second) ↔
      NeverUsedAfter first ∧ NeverUsedAfter second ∧
        ∀ resource, .release resource ∈ first → .use resource ∉ second := by
  induction first with
  | nil => simp [NeverUsedAfter]
  | cons event first ih =>
      cases event with
      | acquire resource => simp [NeverUsedAfter, ih]
      | use resource => simp [NeverUsedAfter, ih]
      | release resource =>
          simp only [List.cons_append, NeverUsedAfter, ih, List.mem_append, not_or, List.mem_cons,
            Event.release.injEq, forall_eq_or_imp]
          tauto

/-- A log without releases. -/
theorem never_used_after_of_held {log : List (Event κ)} (h : ∀ resource, .release resource ∉ log) :
    NeverUsedAfter log := by
  induction log with
  | nil => trivial
  | cons event log ih =>
      have hrest : ∀ resource, .release resource ∉ log := fun resource hmem =>
        h resource (List.mem_cons_of_mem event hmem)
      cases event with
      | acquire resource => exact ih hrest
      | use resource => exact ih hrest
      | release resource => exact absurd List.mem_cons_self (h resource)

/-- Everything is held until `closing`, which acquires nothing and releases each resource once. -/
theorem clean_of_held [DecidableEq κ] {held closing : List (Event κ)}
    (hheld : ∀ resource, .release resource ∉ held)
    (hacquire : ∀ resource, .acquire resource ∉ closing)
    (honce : ∀ resource, .acquire resource ∈ held → closing.count (.release resource) = 1)
    (hafter : NeverUsedAfter closing) : Clean (held ++ closing) := by
  refine ⟨fun resource hmem => ?_, never_used_after_append.mpr
    ⟨never_used_after_of_held hheld, hafter, fun resource hmem => absurd hmem (hheld resource)⟩⟩
  have hacquired : .acquire resource ∈ held :=
    (List.mem_append.mp hmem).resolve_right (hacquire resource)
  rw [List.count_append, List.count_eq_zero_of_not_mem (hheld resource), Nat.zero_add,
    honce resource hacquired]

/-- Different events stay different if different resources do. -/
theorem map_injective {f : κ → μ} (hf : Function.Injective f) :
    Function.Injective (Event.map f) := by
  intro left right h
  cases left <;> cases right <;> simp only [Event.map, Event.acquire.injEq, Event.use.injEq,
    Event.release.injEq, reduceCtorEq] at h ⊢ <;> exact hf h

/-- Renaming the resources changes nothing. -/
theorem never_used_after_map {f : κ → μ} (hf : Function.Injective f) (log : List (Event κ)) :
    NeverUsedAfter (log.map (Event.map f)) ↔ NeverUsedAfter log := by
  induction log with
  | nil => rfl
  | cons event log ih =>
      cases event with
      | acquire resource => exact ih
      | use resource => exact ih
      | release resource =>
          have hmem : .use (f resource) ∈ log.map (Event.map f) ↔ .use resource ∈ log :=
            List.mem_map_of_injective (map_injective hf) (a := .use resource)
          simp only [List.map_cons, Event.map, NeverUsedAfter, hmem, ih]

section Decidable

variable [DecidableEq κ] [DecidableEq μ]

/-- A log that is not about a resource does not release it. -/
theorem count_release_eq_zero {log : List (Event κ)} {resource : κ}
    (h : ∀ event ∈ log, event.subject ≠ resource) : log.count (.release resource) = 0 :=
  List.count_eq_zero_of_not_mem fun hmem => h _ hmem rfl

/-- Logs about different resources are clean together if each is on its own. -/
theorem clean_append {first second : List (Event κ)}
    (h : ∀ left ∈ first, ∀ right ∈ second, left.subject ≠ right.subject) :
    Clean (first ++ second) ↔ Clean first ∧ Clean second := by
  have hfirst : ∀ resource, .acquire resource ∈ first →
      (first ++ second).count (.release resource) = first.count (.release resource) := by
    intro resource hmem
    have hnone : second.count (.release resource) = 0 :=
      count_release_eq_zero fun right hright => (h _ hmem right hright).symm
    rw [List.count_append, hnone, Nat.add_zero]
  have hsecond : ∀ resource, .acquire resource ∈ second →
      (first ++ second).count (.release resource) = second.count (.release resource) := by
    intro resource hmem
    have hnone : first.count (.release resource) = 0 :=
      count_release_eq_zero fun left hleft => h left hleft _ hmem
    rw [List.count_append, hnone, Nat.zero_add]
  constructor
  · intro hclean
    have hafter := never_used_after_append.mp hclean.after
    exact ⟨⟨fun resource hmem => (hfirst resource hmem).symm.trans
        (hclean.once resource (List.mem_append_left second hmem)), hafter.1⟩,
      ⟨fun resource hmem => (hsecond resource hmem).symm.trans
        (hclean.once resource (List.mem_append_right first hmem)), hafter.2.1⟩⟩
  · rintro ⟨hleft, hright⟩
    refine ⟨fun resource hmem => ?_, never_used_after_append.mpr
      ⟨hleft.after, hright.after, fun resource hreleased hused => h _ hreleased _ hused rfl⟩⟩
    rcases List.mem_append.mp hmem with hmem | hmem
    · exact (hfirst resource hmem).trans (hleft.once resource hmem)
    · exact (hsecond resource hmem).trans (hright.once resource hmem)

/-- A log is clean under any names. -/
theorem clean_map {f : κ → μ} (hf : Function.Injective f) (log : List (Event κ)) :
    Clean (log.map (Event.map f)) ↔ Clean log := by
  have hcount : ∀ resource, (log.map (Event.map f)).count (.release (f resource)) =
      log.count (.release resource) := fun resource =>
    List.count_map_of_injective log _ (map_injective hf) (.release resource)
  constructor
  · intro hclean
    refine ⟨fun resource hmem => ?_, (never_used_after_map hf log).mp hclean.after⟩
    rw [← hcount]
    exact hclean.once (f resource) (List.mem_map_of_mem (f := Event.map f) hmem)
  · intro hclean
    refine ⟨fun resource hmem => ?_, (never_used_after_map hf log).mpr hclean.after⟩
    obtain ⟨event, hevent, heq⟩ := List.mem_map.mp hmem
    cases event with
    | acquire original =>
        cases heq
        exact (hcount original).trans (hclean.once original hevent)
    | use original => cases heq
    | release original => cases heq

end Decidable

/-- Logs one after the other, each with resources of its own, which carry the log's number. -/
def inTurnFrom (number : ℕ) : List (List (Event κ)) → List (Event (κ × ℕ))
  | [] => []
  | log :: logs => log.map (Event.map (·, number)) ++ inTurnFrom (number + 1) logs

/-- Logs one after the other, numbered from 0. -/
def inTurn (logs : List (List (Event κ))) : List (Event (κ × ℕ)) := inTurnFrom 0 logs

/-- The resource of a renamed event. -/
theorem subject_map (f : κ → μ) (event : Event κ) :
    (event.map f).subject = f event.subject := by
  cases event <;> rfl

/-- The resources of the logs carry numbers from the first on. -/
theorem le_number_of_mem {number : ℕ} {logs : List (List (Event κ))} {event : Event (κ × ℕ)}
    (h : event ∈ inTurnFrom number logs) : number ≤ event.subject.2 := by
  induction logs generalizing number with
  | nil => cases h
  | cons log logs ih =>
      rcases List.mem_append.mp h with h | h
      · obtain ⟨original, _, rfl⟩ := List.mem_map.mp h
        exact Nat.le_of_eq (congrArg Prod.snd (subject_map (·, number) original)).symm
      · exact Nat.le_of_succ_le (ih h)

/-- Logs one after the other are clean if each of them is. -/
theorem clean_in_turn_from [DecidableEq κ] (number : ℕ) (logs : List (List (Event κ))) :
    Clean (inTurnFrom number logs) ↔ ∀ log ∈ logs, Clean log := by
  induction logs generalizing number with
  | nil =>
      have hclean : Clean (inTurnFrom number ([] : List (List (Event κ)))) :=
        ⟨fun _ hmem => absurd hmem List.not_mem_nil, trivial⟩
      exact iff_of_true hclean fun _ hmem => absurd hmem List.not_mem_nil
  | cons log logs ih =>
      have hdisjoint : ∀ left ∈ log.map (Event.map (·, number)),
          ∀ right ∈ inTurnFrom (number + 1) logs, left.subject ≠ right.subject := by
        intro left hleft right hright heq
        obtain ⟨original, _, rfl⟩ := List.mem_map.mp hleft
        have hnumber := le_number_of_mem hright
        rw [← heq, subject_map] at hnumber
        exact Nat.not_succ_le_self number hnumber
      rw [inTurnFrom, clean_append hdisjoint, clean_map (Prod.mk_left_injective number), ih,
        List.forall_mem_cons]

/-- Logs one after the other are clean if each of them is. -/
theorem clean_in_turn [DecidableEq κ] (logs : List (List (Event κ))) :
    Clean (inTurn logs) ↔ ∀ log ∈ logs, Clean log :=
  clean_in_turn_from 0 logs

end Resources
