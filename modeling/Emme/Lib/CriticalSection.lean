import Emme.Lib.Execution
import Mathlib.Logic.Function.Basic

/-!
# Operations under locks

Threads work in small steps on data in several parts, each with a lock that an operation holds from
its first step to its last. However the steps are interleaved, a run does what the operations do as
a whole, in the order in which they released their locks (`runs_serially`).
-/

namespace CriticalSection

open Execution

variable {ν σ ι κ ω : Type*} [DecidableEq ν]

/-- Operations in steps: the lock of each, where it enters, and its next step, which goes on or
releases the lock with a result. -/
structure Body (ν σ ι κ ω : Type*) where
  lock : ι → ν
  enter : ι → κ
  step : ν → σ → κ → σ × (κ ⊕ ω)

/-- The data behind each lock, the operation that holds it with the thread it belongs to and the
point it is at, and the operations that have released theirs with their results. -/
structure Locked (ν σ ι κ ω : Type*) where
  data : ν → σ
  holder : ν → Option (Nat × ι × κ)
  history : List (ι × ω)

/-- A thread takes the lock of an operation, or does the next step of the one it has a lock for. -/
inductive Label (ν ι : Type*) where
  | acquire (thread : Nat) (op : ι)
  | step (thread : Nat) (lock : ν)
  deriving DecidableEq, Repr

/-- The lock is released, or the operation goes on. -/
def Locked.proceed (s : Locked ν σ ι κ ω) (thread : Nat) (lock : ν) (op : ι) :
    σ × (κ ⊕ ω) → Locked ν σ ι κ ω
  | (part, .inl point) =>
      { s with
        data := Function.update s.data lock part
        holder := Function.update s.holder lock (some (thread, op, point)) }
  | (part, .inr result) =>
      { data := Function.update s.data lock part
        holder := Function.update s.holder lock none
        history := s.history ++ [(op, result)] }

/-- One step: a thread takes a free lock and enters the section of its operation, or the thread that
holds a lock takes one step of its section. -/
def Locked.next (body : Body ν σ ι κ ω) (s : Locked ν σ ι κ ω) :
    Label ν ι → Option (Locked ν σ ι κ ω)
  | .acquire thread op =>
      match s.holder (body.lock op) with
      | none =>
          some { s with
            holder := Function.update s.holder (body.lock op) (some (thread, op, body.enter op)) }
      | some _ => none
  | .step thread lock =>
      match s.holder lock with
      | some (holder, op, point) =>
          if holder = thread then
            some (s.proceed thread lock op (body.step lock (s.data lock) point))
          else none
      | none => none

/-- All locks are free, and nothing has been done. -/
def Locked.start (data : ν → σ) : Locked ν σ ι κ ω := ⟨data, fun _ => none, []⟩

/-- The operations so far, in the order in which they released their locks. -/
def Locked.done (s : Locked ν σ ι κ ω) : List ι := s.history.map Prod.fst

/-- From this point the operation ends with this result and these data. -/
inductive Ends (body : Body ν σ ι κ ω) (lock : ν) : σ → κ → ω × σ → Prop where
  | release {part part' : σ} {point : κ} {result : ω}
      (hstep : body.step lock part point = (part', .inr result)) :
      Ends body lock part point (result, part')
  | proceed {part part' : σ} {point point' : κ} {outcome : ω × σ}
      (hstep : body.step lock part point = (part', .inl point'))
      (hends : Ends body lock part' point' outcome) :
      Ends body lock part point outcome

/-- The steps of an operation come to what it does as a whole. -/
def Body.Implements (body : Body ν σ ι κ ω) (whole : σ → ι → ω × σ) : Prop :=
  ∀ part op, Ends body (body.lock op) part (body.enter op) (whole part op)

/-- What an operation as a whole does to all the data. -/
def Body.atomically (body : Body ν σ ι κ ω) (whole : σ → ι → ω × σ) (data : ν → σ) (op : ι) :
    ω × (ν → σ) :=
  ((whole (data (body.lock op)) op).1,
    Function.update data (body.lock op) (whole (data (body.lock op)) op).2)

variable {body : Body ν σ ι κ ω} {whole : σ → ι → ω × σ} {start : ν → σ}
  {s s' : Locked ν σ ι κ ω}

/-- A part of the data is what the operations so far have made of it, or the one that holds its
lock is on its way from there to what it does as a whole. -/
inductive Underway (body : Body ν σ ι κ ω) (whole : σ → ι → ω × σ) (lock : ν) (part : σ) :
    Option (Nat × ι × κ) → σ → Prop where
  | free : Underway body whole lock part none part
  | held {thread : Nat} {op : ι} {point : κ} {before : σ} (hlock : body.lock op = lock)
      (hends : Ends body lock part point (whole before op)) :
      Underway body whole lock part (some (thread, op, point)) before

/-- What was done is what the operations do as a whole. -/
structure Serial (body : Body ν σ ι κ ω) (whole : σ → ι → ω × σ) (start : ν → σ)
    (s : Locked ν σ ι κ ω) : Prop where
  results : s.history = trace (body.atomically whole) start s.done
  underway : ∀ lock, Underway body whole lock (s.data lock) (s.holder lock)
    (after (body.atomically whole) start s.done lock)

/-- Under a free lock stand the data that the operations so far leave. -/
theorem Serial.free (h : Serial body whole start s) {lock : ν} (hfree : s.holder lock = none) :
    s.data lock = after (body.atomically whole) start s.done lock := by
  have hunderway := h.underway lock
  rw [hfree] at hunderway
  generalize after (body.atomically whole) start s.done lock = part at hunderway ⊢
  cases hunderway
  rfl

/-- Only the part behind one lock changes. -/
theorem underway_update {data before : ν → σ} {holder : ν → Option (Nat × ι × κ)}
    (h : ∀ lock, Underway body whole lock (data lock) (holder lock) (before lock))
    {lock : ν} {part part' : σ} {holder' : Option (Nat × ι × κ)}
    (hlock : Underway body whole lock part holder' part') (other : ν) :
    Underway body whole other (Function.update data lock part other)
      (Function.update holder lock holder' other) (Function.update before lock part' other) := by
  by_cases heq : other = lock
  · subst heq
    simpa only [Function.update_self] using hlock
  · simpa only [Function.update_of_ne heq] using h other

/-- Taking a lock changes no data. -/
theorem Serial.acquire (himplements : body.Implements whole) (h : Serial body whole start s)
    {op : ι} (hfree : s.holder (body.lock op) = none) (thread : Nat) :
    Serial body whole start { s with
      holder := Function.update s.holder (body.lock op) (some (thread, op, body.enter op)) } := by
  have hheld : Underway body whole (body.lock op) (s.data (body.lock op))
      (some (thread, op, body.enter op))
      (after (body.atomically whole) start s.done (body.lock op)) := by
    rw [← h.free hfree]
    exact .held rfl (himplements _ op)
  have hunderway := underway_update h.underway hheld
  simp only [Function.update_eq_self] at hunderway
  exact ⟨h.results, hunderway⟩

/-- A step after which the operation still has its lock. -/
theorem Serial.proceed (h : Serial body whole start s) {thread : Nat} {op : ι} {part : σ}
    {point : κ} (hends : Ends body (body.lock op) part point
      (whole (after (body.atomically whole) start s.done (body.lock op)) op)) :
    Serial body whole start (s.proceed thread (body.lock op) op (part, .inl point)) := by
  have hheld : Underway body whole (body.lock op) part (some (thread, op, point))
      (after (body.atomically whole) start s.done (body.lock op)) := .held rfl hends
  have hunderway := underway_update h.underway hheld
  simp only [Function.update_eq_self] at hunderway
  exact ⟨h.results, hunderway⟩

/-- The step with which an operation releases its lock. -/
theorem Serial.release (h : Serial body whole start s) {thread : Nat} {op : ι} {part : σ}
    {result : ω}
    (houtcome : whole (after (body.atomically whole) start s.done (body.lock op)) op =
      (result, part)) :
    Serial body whole start (s.proceed thread (body.lock op) op (part, .inr result)) := by
  have hdone : (s.proceed thread (body.lock op) op (part, .inr result)).done = s.done ++ [op] := by
    simp [Locked.proceed, Locked.done]
  have hwhole : body.atomically whole (after (body.atomically whole) start s.done) op =
      (result,
        Function.update (after (body.atomically whole) start s.done) (body.lock op) part) := by
    rw [Body.atomically, houtcome]
  refine ⟨?_, fun other => ?_⟩
  · rw [hdone, trace_append, ← h.results, trace_cons, hwhole]
    rfl
  · rw [hdone, after_append, after_cons, after_nil, hwhole]
    exact underway_update h.underway .free other

/-- Every step keeps to what the operations do as a whole. -/
theorem Serial.next (himplements : body.Implements whole) (h : Serial body whole start s)
    {label : Label ν ι} (hnext : s.next body label = some s') : Serial body whole start s' := by
  cases label with
  | acquire thread op =>
      simp only [Locked.next] at hnext
      split at hnext
      · rename_i hfree
        cases hnext
        exact h.acquire himplements hfree thread
      · cases hnext
  | step thread lock =>
      simp only [Locked.next] at hnext
      split at hnext
      · rename_i holder op point hholder
        obtain ⟨rfl, hnext⟩ := Option.ite_none_right_eq_some.mp hnext
        cases hnext
        have hunderway := h.underway lock
        rw [hholder] at hunderway
        obtain ⟨rfl, hends⟩ : body.lock op = lock ∧ Ends body lock (s.data lock) point
            (whole (after (body.atomically whole) start s.done lock) op) := by
          cases hunderway with
          | held hlock hends => exact ⟨hlock, hends⟩
        generalize houtcome :
          whole (after (body.atomically whole) start s.done (body.lock op)) op = outcome at hends
        cases hends with
        | release hstep =>
            rw [hstep]
            exact h.release houtcome
        | proceed hstep hends =>
            rw [hstep]
            exact h.proceed (houtcome ▸ hends)
      · cases hnext

/-- A run does what the operations do as a whole, in the order in which they released their
locks. -/
theorem runs_serially (himplements : body.Implements whole) {labels : List (Label ν ι)}
    (hrun : run (Locked.next body) (.start start) labels = some s) : Serial body whole start s :=
  run_preserves (fun _ _ _ h hnext => Serial.next himplements h hnext)
    (⟨rfl, fun _ => .free⟩ : Serial body whole start (.start start)) hrun

end CriticalSection
