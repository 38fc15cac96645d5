import Emme.Backend.BreakerThreads
import Emme.Backend.Callers

/-!
# Requests to a backend whose breaker is open

`proxy_to_backend_pooled` asks the circuit breaker, takes a connection, and records the outcome with
the breaker before it gives the connection back. Here call `c` of `Emme.Backend.Callers` is thread
`c` of `Emme.Backend.BreakerThreads`; the joined runs are runs of both (`proxies_project`). While
the breaker is open no request reaches the backend but those let through before
(`open_breaker_fails_fast`).
-/

namespace Emme.Backend

open Execution

/-! ## The machine -/

/-- How far a call is with the breaker: before and in `allow_request`, with its answer, with an
outcome that it is about to record, or with nothing to do there. -/
inductive Stage where
  | asking
  | waiting
  | answered (allowed : Bool)
  | owing (op : BreakerOp)
  | free
  deriving DecidableEq, Repr

/-- The calls, the breaker with a thread for each call that is ever made, and the stages of the
calls so far. -/
structure Proxies where
  world : World
  breaker : BreakerSystem
  stages : List Stage
  deriving DecidableEq, Repr

/-- A new call; a call enters a function of the breaker, does an atomic operation in it, or takes
a step outside. -/
inductive ProxyLabel where
  | call (caller : Caller)
  | enter (c : Nat)
  | operate (c : Nat) (now : Int)
  | pool (c : Nat) (env : Env)
  deriving DecidableEq, Repr

/-- The health checks do not use the breaker. -/
def Caller.firstStage : Caller → Stage
  | .proxy => .asking
  | .healthCheck => .free

/-- What `allow_request` returns if it returns from here. -/
def BreakerPoint.allows : BreakerPoint → Bool
  | .allowLoadFailureTime => false
  | _ => true

/-- What a call owes the breaker after a step to `pc`: the outcome that it has marked, or that it
has found no connection. -/
def Call.stageAfter (call : Call) (pc : Option Pc) : Stage :=
  match call.caller, call.pc with
  | .proxy, .marking _ success => .owing (if success then .recordSuccess else .recordFailure)
  | .proxy, .scanning _ _ => if pc = some .finished then .owing .recordFailure else .free
  | _, _ => .free

/-- A step of a call outside the breaker, with the breaker's answer in its environment. -/
def Proxies.stepPool (s : Proxies) (c : Nat) (call : Call) (env : Env) : Option Proxies :=
  match s.world.next (.step c env) with
  | some world =>
      some { s with
        world
        stages := s.stages.set c (call.stageAfter ((world.calls[c]?).map Call.pc)) }
  | none => none

/-- One step: a thread begins a call, asks the breaker, goes on in the pool, or reports to the
breaker. -/
def Proxies.next (s : Proxies) : ProxyLabel → Option Proxies
  | .call caller =>
      if s.world.calls.length < s.breaker.threads.length then
        some { s with
          world := { s.world with calls := s.world.calls ++ [⟨caller, .begun, [], []⟩] }
          stages := s.stages ++ [caller.firstStage] }
      else none
  | .enter c =>
      match s.stages[c]? with
      | some .asking =>
          (breakerNext s.breaker (.call c .allowRequest)).map fun breaker =>
            { s with
              breaker
              stages := s.stages.set c
                (if s.breaker.breaker.enabled then .waiting else .answered true) }
      | some (.owing op) =>
          (breakerNext s.breaker (.call c op)).map fun breaker =>
            { s with breaker, stages := s.stages.set c .free }
      | _ => none
  | .operate c now =>
      match s.breaker.threads[c]? with
      | some point =>
          (breakerNext s.breaker (.operate c now)).map fun breaker =>
            { s with
              breaker
              stages :=
                if s.stages[c]? = some .waiting ∧ breaker.threads[c]? = some .idle then
                  s.stages.set c (.answered point.allows)
                else s.stages }
      | none => none
  | .pool c env =>
      match s.world.calls[c]? with
      | some call =>
          if s.breaker.threads[c]? = some .idle then
            match s.stages[c]? with
            | some (.answered allowed) => s.stepPool c call { env with allowed }
            | some .free => s.stepPool c call env
            | _ => none
          else none
      | none => none

/-- Before the first call. -/
def Proxies.start (pool : BackendPool) (breaker : CircuitBreaker) (calls : Nat) : Proxies where
  world := .start pool
  breaker := .fresh breaker calls
  stages := []

/-- What the clock reads in the step is before this time. -/
def BreakerLabel.Before (time : Int) : BreakerLabel → Prop
  | .operate _ now => now < time
  | _ => True

/-- What the breaker reads from the clock in the step is before this time. -/
def ProxyLabel.Before (time : Int) : ProxyLabel → Prop
  | .operate _ now => now < time
  | _ => True

/-! ## What a step can do -/

/-- What a step does to the calls, the breaker and the stages. -/
inductive ProxyMove (s s' : Proxies) : ProxyLabel → Prop where
  | call {caller : Caller}
      (hworld : s'.world = { s.world with calls := s.world.calls ++ [⟨caller, .begun, [], []⟩] })
      (hbreaker : s'.breaker = s.breaker) (hstages : s'.stages = s.stages ++ [caller.firstStage]) :
      ProxyMove s s' (.call caller)
  | ask {c : Nat} (hstage : s.stages[c]? = some .asking) (hworld : s'.world = s.world)
      (hbreaker : breakerNext s.breaker (.call c .allowRequest) = some s'.breaker)
      (hstages : s'.stages = s.stages.set c
        (if s.breaker.breaker.enabled then .waiting else .answered true)) :
      ProxyMove s s' (.enter c)
  | report {c : Nat} {op : BreakerOp} (hstage : s.stages[c]? = some (.owing op))
      (hworld : s'.world = s.world)
      (hbreaker : breakerNext s.breaker (.call c op) = some s'.breaker)
      (hstages : s'.stages = s.stages.set c .free) : ProxyMove s s' (.enter c)
  | operate {c : Nat} {now : Int} {point : BreakerPoint}
      (hpoint : s.breaker.threads[c]? = some point) (hworld : s'.world = s.world)
      (hbreaker : breakerNext s.breaker (.operate c now) = some s'.breaker)
      (hstages : s'.stages =
        if s.stages[c]? = some .waiting ∧ s'.breaker.threads[c]? = some .idle then
          s.stages.set c (.answered point.allows)
        else s.stages) : ProxyMove s s' (.operate c now)
  /-- The step is taken with nothing to do at the breaker, or with its answer. -/
  | pool {c : Nat} {env : Env} (call : Call) (env' : Env) (hcall : s.world.calls[c]? = some call)
      (hstage : s.stages[c]? = some .free ∨ s.stages[c]? = some (.answered env'.allowed))
      (hworld : s.world.advance c call env' = some s'.world) (hbreaker : s'.breaker = s.breaker)
      (hstages : s'.stages =
        s.stages.set c (call.stageAfter ((s'.world.calls[c]?).map Call.pc))) :
      ProxyMove s s' (.pool c env)

variable {s s' : Proxies} {call : Call}

/-- A step of a caller in the pool, with or without the breaker's answer, is a move. -/
theorem step_pool_moves {c : Nat} {env env' : Env} (hcall : s.world.calls[c]? = some call)
    (hstage : s.stages[c]? = some .free ∨ s.stages[c]? = some (.answered env'.allowed))
    (h : s.stepPool c call env' = some s') : ProxyMove s s' (.pool c env) := by
  unfold Proxies.stepPool at h
  split at h
  · rename_i world hworld
    cases h
    simp only [World.next, hcall] at hworld
    exact .pool call env' hcall hstage hworld rfl rfl
  · cases h

/-- Every step is one of the moves. -/
theorem proxies_move {label : ProxyLabel} (h : s.next label = some s') : ProxyMove s s' label := by
  cases label with
  | call caller =>
      obtain ⟨-, h⟩ := Option.ite_none_right_eq_some.mp h
      cases h
      exact .call rfl rfl rfl
  | enter c =>
      simp only [Proxies.next] at h
      split at h
      · rename_i hstage
        obtain ⟨breaker, hbreaker, rfl⟩ := Option.map_eq_some_iff.mp h
        exact .ask hstage rfl hbreaker rfl
      · rename_i hstage
        obtain ⟨breaker, hbreaker, rfl⟩ := Option.map_eq_some_iff.mp h
        exact .report hstage rfl hbreaker rfl
      · cases h
  | operate c now =>
      simp only [Proxies.next] at h
      split at h
      · rename_i hpoint
        obtain ⟨breaker, hbreaker, rfl⟩ := Option.map_eq_some_iff.mp h
        exact .operate hpoint rfl hbreaker rfl
      · cases h
  | pool c env =>
      simp only [Proxies.next] at h
      split at h
      · rename_i hcall
        obtain ⟨-, h⟩ := Option.ite_none_right_eq_some.mp h
        split at h
        · rename_i hstage
          exact step_pool_moves hcall (.inr hstage) h
        · rename_i hstage
          exact step_pool_moves hcall (.inl hstage) h
        · cases h
      · cases h

/-- A step of one call changes that call only. -/
theorem advance_calls {w w' : World} {c : Nat} {env : Env} (h : w.advance c call env = some w') :
    ∃ call', w'.calls = w.calls.set c call' ∧ call'.caller = call.caller := by
  obtain ⟨caller, pc, obtained, givenBack⟩ := call
  unfold World.advance at h
  cases pc with
  | acquiring =>
      obtain ⟨-, h⟩ := Option.ite_none_right_eq_some.mp h
      cases h
      exact ⟨_, rfl, rfl⟩
  | scanning =>
      dsimp only at h
      split at h <;> cases h <;> exact ⟨_, rfl, rfl⟩
  | finished => cases h
  | _ =>
      cases h
      exact ⟨_, rfl, rfl⟩

section Moves

variable {s s' : Proxies} {label : ProxyLabel} {c : Nat}

/-- A step is one of the calls or one of the breaker. -/
theorem ProxyMove.projects (h : ProxyMove s s' label) :
    (∃ step, s.world.next step = some s'.world) ∧ s'.breaker = s.breaker ∨
      s'.world = s.world ∧ ∃ step, (∀ time, label.Before time → step.Before time) ∧
        breakerNext s.breaker step = some s'.breaker := by
  cases h with
  | @call caller hworld hbreaker => exact .inl ⟨⟨.call caller, congrArg some hworld.symm⟩, hbreaker⟩
  | @ask c _ hworld hbreaker =>
      exact .inr ⟨hworld, .call c .allowRequest, fun _ _ => trivial, hbreaker⟩
  | @report c op _ hworld hbreaker =>
      exact .inr ⟨hworld, .call c op, fun _ _ => trivial, hbreaker⟩
  | @operate c now _ _ hworld hbreaker =>
      exact .inr ⟨hworld, .operate c now, fun _ hbefore => hbefore, hbreaker⟩
  | @pool c _ call env' hcall _ hworld hbreaker =>
      refine .inl ⟨⟨.step c env', ?_⟩, hbreaker⟩
      simp only [World.next, hcall, hworld]

/-- Each call has its stage. -/
theorem ProxyMove.aligned (h : ProxyMove s s' label)
    (haligned : s.stages.length = s.world.calls.length) :
    s'.stages.length = s'.world.calls.length := by
  cases h with
  | call hworld _ hstages => simp [hworld, hstages, haligned]
  | ask _ hworld _ hstages => simp [hworld, hstages, haligned]
  | report _ hworld _ hstages => simp [hworld, hstages, haligned]
  | operate _ hworld _ hstages =>
      rw [hworld, hstages]
      split
      · rw [List.length_set, haligned]
      · exact haligned
  | pool _ _ _ _ hworld _ hstages =>
      obtain ⟨call', hcalls, -⟩ := advance_calls hworld
      rw [hstages, hcalls, List.length_set, List.length_set, haligned]

/-- A call was there before the step, with the same caller, or the step has begun it. -/
theorem ProxyMove.caller (h : ProxyMove s s' label) (hc : s'.world.calls[c]? = some call) :
    (∃ before, s.world.calls[c]? = some before ∧ before.caller = call.caller) ∨
      label = .call call.caller ∧ c = s.world.calls.length := by
  cases h with
  | call hworld =>
      rw [hworld] at hc
      rcases Nat.lt_or_ge c s.world.calls.length with hlt | hge
      · rw [List.getElem?_append_left hlt] at hc
        exact .inl ⟨call, hc, rfl⟩
      · rw [List.getElem?_append_right hge, List.getElem?_singleton] at hc
        obtain ⟨hzero, hc⟩ := Option.ite_none_right_eq_some.mp hc
        cases hc
        exact .inr ⟨rfl, by omega⟩
  | ask _ hworld => exact .inl ⟨call, hworld ▸ hc, rfl⟩
  | report _ hworld => exact .inl ⟨call, hworld ▸ hc, rfl⟩
  | operate _ hworld => exact .inl ⟨call, hworld ▸ hc, rfl⟩
  | @pool d _ before _ hbefore _ hworld =>
      obtain ⟨call', hcalls, hcaller⟩ := advance_calls hworld
      rw [hcalls] at hc
      by_cases hdc : d = c
      · subst hdc
        rw [List.getElem?_set_self (List.getElem?_eq_some_iff.mp hbefore).1] at hc
        cases hc
        exact .inl ⟨before, hbefore, hcaller.symm⟩
      · rw [List.getElem?_set_ne hdc] at hc
        exact .inl ⟨call, hc, rfl⟩

end Moves

/-- The joined runs are runs of the calls and runs of the breaker. -/
theorem proxies_project {labels : List ProxyLabel} (h : run Proxies.next s labels = some s') :
    (∃ steps, run World.next s.world steps = some s'.world) ∧
      ∃ steps, run breakerNext s.breaker steps = some s'.breaker := by
  induction labels generalizing s with
  | nil =>
      cases h
      exact ⟨⟨[], rfl⟩, [], rfl⟩
  | cons label labels ih =>
      obtain ⟨middle, hstep, hrest⟩ := run_cons_eq_some.mp h
      obtain ⟨⟨calls, hcalls⟩, operations, hoperations⟩ := ih hrest
      rcases (proxies_move hstep).projects with
        ⟨⟨step, hworld⟩, hbreaker⟩ | ⟨hworld, step, -, hbreaker⟩
      · rw [hbreaker] at hoperations
        exact ⟨⟨step :: calls, run_cons_eq_some.mpr ⟨_, hworld, hcalls⟩⟩, operations, hoperations⟩
      · rw [hworld] at hcalls
        exact ⟨⟨calls, hcalls⟩, step :: operations,
          run_cons_eq_some.mpr ⟨_, hbreaker, hoperations⟩⟩

/-! ## An open breaker -/

/-- The thread is not on its way to a store of the state or of the time of the last failure. -/
def BreakerPoint.settled : BreakerPoint → Bool
  | .allowStoreState _ => false
  | .successAdd => false
  | .successStoreState => false
  | .failureAdd _ _ => false
  | .failureStoreTime _ _ _ => false
  | .failureStoreState _ _ => false
  | _ => true

/-- The breaker is open, and no thread is about to change that. -/
structure BreakerSystem.Tripped (system : BreakerSystem) : Prop where
  enabled : system.breaker.enabled = true
  opened : system.breaker.state = .opened
  settled : ∀ point ∈ system.threads, point.settled = true

/-- When the first request is let through. -/
def CircuitBreaker.recoversAt (breaker : CircuitBreaker) : Int :=
  breaker.lastFailureTime + breaker.config.recoveryTimeoutSeconds.toInt

/-- An operation before the recovery time leaves an open breaker open. -/
theorem advance_opened {breaker : CircuitBreaker} {point : BreakerPoint} {now : Int}
    (hopened : breaker.state = .opened) (hsettled : point.settled = true)
    (hnow : now < breaker.recoversAt) :
    (point.advance breaker now).1.enabled = breaker.enabled ∧
      (point.advance breaker now).1.state = .opened ∧
      (point.advance breaker now).1.recoversAt = breaker.recoversAt ∧
      (point.advance breaker now).2.settled = true := by
  have hearly : ¬ now - breaker.lastFailureTime ≥ breaker.config.recoveryTimeoutSeconds.toInt := by
    rw [CircuitBreaker.recoversAt] at hnow
    omega
  cases point with
  | loadState op => cases op <;> simp [BreakerPoint.advance, hopened, BreakerPoint.settled]
  | allowLoadFailureTime =>
      simp only [BreakerPoint.advance, if_neg hearly]
      exact ⟨trivial, hopened, trivial, rfl⟩
  | allowStoreState | successAdd | successStoreState | failureAdd | failureStoreTime
  | failureStoreState => cases hsettled
  | _ => exact ⟨rfl, hopened, rfl, rfl⟩

/-- The breaker stays open until the recovery time. -/
theorem BreakerSystem.Tripped.step {system following : BreakerSystem} {label : BreakerLabel}
    (h : system.Tripped) (hbefore : label.Before system.breaker.recoversAt)
    (hnext : breakerNext system label = some following) :
    following.Tripped ∧ following.breaker.recoversAt = system.breaker.recoversAt := by
  cases label with
  | call thread op =>
      simp only [breakerNext] at hnext
      split at hnext
      · cases hnext
        refine ⟨⟨h.enabled, h.opened, fun point hpoint => ?_⟩, rfl⟩
        rcases List.mem_or_eq_of_mem_set hpoint with hold | rfl
        · exact h.settled point hold
        · rw [if_pos h.enabled]
          rfl
      · cases hnext
  | operate thread now =>
      obtain ⟨point, breaker', point', hpoint, hadvance, rfl⟩ := breaker_next_operate hnext
      have hkept := advance_opened h.opened (h.settled point (List.mem_of_getElem? hpoint)) hbefore
      rw [hadvance] at hkept
      obtain ⟨henabled, hopened, hrecovers, hsettled⟩ := hkept
      refine ⟨⟨henabled.trans h.enabled, hopened, fun other hother => ?_⟩, hrecovers⟩
      rcases List.mem_or_eq_of_mem_set hother with hold | rfl
      · exact h.settled other hold
      · exact hsettled

/-- A thread that enters a call is at its first operation. -/
theorem breaker_next_call {system following : BreakerSystem} {thread : Nat} {op : BreakerOp}
    (henabled : system.breaker.enabled = true)
    (hnext : breakerNext system (.call thread op) = some following) :
    following.threads = system.threads.set thread (.loadState op) ∧
      thread < system.threads.length := by
  simp only [breakerNext, henabled, if_true] at hnext
  split at hnext
  · rename_i hidle
    cases hnext
    exact ⟨rfl, (List.getElem?_eq_some_iff.mp hidle).1⟩
  · cases hnext

/-! ## Calls that are not let through -/

/-- The call has not been let through: it has not asked yet, it has been refused, or the breaker is
still looking. -/
def Proxies.Waits (s : Proxies) (c : Nat) : Prop :=
  s.stages[c]? = some .asking ∨ s.stages[c]? = some (.answered false) ∨
    s.stages[c]? = some .waiting ∧ (s.breaker.threads[c]? = some (.loadState .allowRequest) ∨
      s.breaker.threads[c]? = some .allowLoadFailureTime)

/-- A call of `proxy_to_backend_pooled` that has no connection and will get none unless the
breaker lets it through. -/
def Proxies.Unserved (s : Proxies) (c : Nat) : Prop :=
  ∃ call, s.world.calls[c]? = some call ∧ call.caller = .proxy ∧ call.obtained = [] ∧
    (call.pc = .finished ∨ call.pc = .begun ∧ s.Waits c)

section Unserved

variable {s s' : Proxies} {c : Nat} {label : ProxyLabel}

/-- A request whose call is as it was stays unserved. -/
theorem Proxies.Unserved.of_waits (h : s.Unserved c)
    (hcall : s'.world.calls[c]? = s.world.calls[c]?) (hwaits : s.Waits c → s'.Waits c) :
    s'.Unserved c := by
  obtain ⟨call, hc, hcaller, hnone, hpc⟩ := h
  exact ⟨call, hcall.trans hc, hcaller, hnone, hpc.imp_right fun ⟨hpc, h⟩ => ⟨hpc, hwaits h⟩⟩

/-- What other calls do is of no matter. -/
theorem Proxies.Waits.of_same (h : s.Waits c) (hstage : s'.stages[c]? = s.stages[c]?)
    (hthread : s'.breaker.threads[c]? = s.breaker.threads[c]?) : s'.Waits c := by
  rw [Proxies.Waits, hstage, hthread]
  exact h

/-- Before the recovery time the breaker refuses. -/
theorem Proxies.Waits.operate {now : Int} {point : BreakerPoint} (h : s.Waits c)
    (htripped : s.breaker.Tripped) (hnow : now < s.breaker.breaker.recoversAt)
    (hpoint : s.breaker.threads[c]? = some point)
    (hbreaker : breakerNext s.breaker (.operate c now) = some s'.breaker)
    (hstages : s'.stages =
      if s.stages[c]? = some .waiting ∧ s'.breaker.threads[c]? = some .idle then
        s.stages.set c (.answered point.allows)
      else s.stages) : s'.Waits c := by
  have hearly : ¬ now - s.breaker.breaker.lastFailureTime ≥
      s.breaker.breaker.config.recoveryTimeoutSeconds.toInt := by
    rw [CircuitBreaker.recoversAt] at hnow
    omega
  obtain ⟨_, _, point', hsame, hadvance, hsystem⟩ := breaker_next_operate hbreaker
  cases hpoint.symm.trans hsame
  have hthread' : s'.breaker.threads[c]? = some point' := by
    rw [hsystem]
    exact List.getElem?_set_self (List.getElem?_eq_some_iff.mp hpoint).1
  rw [Proxies.Waits, hstages, hthread']
  rcases h with hstage | hstage | ⟨hstage, hthread | hthread⟩
  · simp [hstage]
  · simp [hstage]
  · cases hpoint.symm.trans hthread
    simp only [BreakerPoint.advance, htripped.opened, if_true, Prod.mk.injEq] at hadvance
    obtain ⟨-, rfl⟩ := hadvance
    simp [hstage]
  · cases hpoint.symm.trans hthread
    simp only [BreakerPoint.advance, if_neg hearly, Prod.mk.injEq] at hadvance
    obtain ⟨-, rfl⟩ := hadvance
    have hlt := (List.getElem?_eq_some_iff.mp hstage).1
    rw [if_pos ⟨hstage, rfl⟩, List.getElem?_set_self hlt]
    exact .inr (.inl rfl)

/-- A call that has not been let through is not let through before the recovery time. -/
theorem Proxies.Unserved.step (h : s.Unserved c) (hmove : ProxyMove s s' label)
    (haligned : s.stages.length = s.world.calls.length) (htripped : s.breaker.Tripped)
    (hbefore : label.Before s.breaker.breaker.recoversAt) : s'.Unserved c := by
  cases hmove with
  | call hworld hbreaker hstages =>
      obtain ⟨hlt, -⟩ := List.getElem?_eq_some_iff.mp h.choose_spec.1
      refine h.of_waits (by rw [hworld, List.getElem?_append_left hlt]) fun hwaits => ?_
      refine hwaits.of_same ?_ (by rw [hbreaker])
      rw [hstages, List.getElem?_append_left (haligned ▸ hlt)]
  | @ask d hstage hworld hbreaker hstages =>
      obtain ⟨hthreads, hlt⟩ := breaker_next_call htripped.enabled hbreaker
      refine h.of_waits (by rw [hworld]) fun hwaits => ?_
      by_cases hdc : d = c
      · subst hdc
        rw [Proxies.Waits, hstages, hthreads, if_pos htripped.enabled, List.getElem?_set_self hlt,
          List.getElem?_set_self (List.getElem?_eq_some_iff.mp hstage).1]
        exact .inr (.inr ⟨rfl, .inl rfl⟩)
      · exact hwaits.of_same (by rw [hstages, List.getElem?_set_ne hdc])
          (by rw [hthreads, List.getElem?_set_ne hdc])
  | @report d op hstage hworld hbreaker hstages =>
      obtain ⟨hthreads, -⟩ := breaker_next_call htripped.enabled hbreaker
      refine h.of_waits (by rw [hworld]) fun hwaits => ?_
      have hdc : d ≠ c := by
        rintro rfl
        simp [Proxies.Waits, hstage] at hwaits
      exact hwaits.of_same (by rw [hstages, List.getElem?_set_ne hdc])
        (by rw [hthreads, List.getElem?_set_ne hdc])
  | @operate d now point hpoint hworld hbreaker hstages =>
      refine h.of_waits (by rw [hworld]) fun hwaits => ?_
      by_cases hdc : d = c
      · subst hdc
        exact hwaits.operate htripped hbefore hpoint hbreaker hstages
      · obtain ⟨_, _, _, -, -, hsystem⟩ := breaker_next_operate hbreaker
        refine hwaits.of_same ?_ (by rw [hsystem]; exact List.getElem?_set_ne hdc)
        rw [hstages]
        split
        · exact List.getElem?_set_ne hdc
        · rfl
  | @pool d _ call env' hcall hstage hworld hbreaker hstages =>
      by_cases hdc : d = c
      · subst hdc
        obtain ⟨_, hc, hcaller, hnone, hpc⟩ := h
        cases hcall.symm.trans hc
        rcases hpc with hpc | ⟨hpc, hwaits⟩
        · simp [World.advance, hpc] at hworld
        have hrefused : env'.allowed = false := by
          rcases hstage with hstage | hstage <;> rw [Proxies.Waits, hstage] at hwaits
          · simp at hwaits
          · simpa using hwaits
        -- the call returns at once
        have hfinished : s'.world = s.world.update d { call with pc := .finished } := by
          simpa [World.advance, hpc, hcaller, hrefused] using hworld.symm
        refine ⟨{ call with pc := .finished }, ?_, hcaller, hnone, .inl rfl⟩
        rw [hfinished]
        exact List.getElem?_set_self (List.getElem?_eq_some_iff.mp hcall).1
      · obtain ⟨call', hcalls, -⟩ := advance_calls hworld
        refine h.of_waits (by rw [hcalls, List.getElem?_set_ne hdc]) fun hwaits => ?_
        exact hwaits.of_same (by rw [hstages, List.getElem?_set_ne hdc]) (by rw [hbreaker])

/-- A call that has just begun has not been let through. -/
theorem ProxyMove.new_unserved (h : ProxyMove s s' (.call .proxy))
    (haligned : s.stages.length = s.world.calls.length) :
    s'.Unserved s.world.calls.length := by
  cases h with
  | call hworld _ hstages =>
      refine ⟨⟨.proxy, .begun, [], []⟩, ?_, rfl, rfl, .inr ⟨rfl, .inl ?_⟩⟩
      · rw [hworld]
        exact List.getElem?_concat_length
      · rw [hstages, ← haligned]
        exact List.getElem?_concat_length

end Unserved

/-- The breaker is open, and none of the barred calls is served. -/
structure Proxies.FailsFast (s : Proxies) (barred : Nat → Prop) : Prop where
  tripped : s.breaker.Tripped
  aligned : s.stages.length = s.world.calls.length
  unserved : ∀ c call, barred c → s.world.calls[c]? = some call → call.caller = .proxy →
    s.Unserved c

/-- Before the recovery time no step closes the breaker or serves a request that is barred. -/
theorem Proxies.FailsFast.step {label : ProxyLabel} {barred : Nat → Prop} (h : s.FailsFast barred)
    (hbefore : label.Before s.breaker.breaker.recoversAt) (hnext : s.next label = some s') :
    s'.FailsFast barred ∧ s'.breaker.breaker.recoversAt = s.breaker.breaker.recoversAt := by
  have hmove := proxies_move hnext
  have hbreaker : s'.breaker.Tripped ∧
      s'.breaker.breaker.recoversAt = s.breaker.breaker.recoversAt := by
    rcases hmove.projects with ⟨-, hsame⟩ | ⟨-, step, hstep, hbreaker⟩
    · rw [hsame]
      exact ⟨h.tripped, rfl⟩
    · exact h.tripped.step (hstep _ hbefore) hbreaker
  refine ⟨⟨hbreaker.1, hmove.aligned h.aligned, fun c call hbarred hc hcaller => ?_⟩, hbreaker.2⟩
  rcases hmove.caller hc with ⟨before, hc, hsame⟩ | ⟨rfl, rfl⟩
  · exact (h.unserved c before hbarred hc (hsame.trans hcaller)).step hmove h.aligned h.tripped
      hbefore
  · rw [hcaller] at hmove
    exact hmove.new_unserved h.aligned

/-- Nor does any run. -/
theorem Proxies.FailsFast.run {labels : List ProxyLabel} {barred : Nat → Prop}
    (h : s.FailsFast barred)
    (hbefore : ∀ label ∈ labels, label.Before s.breaker.breaker.recoversAt)
    (hrun : run Proxies.next s labels = some s') : s'.FailsFast barred := by
  induction labels generalizing s with
  | nil =>
      cases hrun
      exact h
  | cons label labels ih =>
      obtain ⟨middle, hnext, hrest⟩ := run_cons_eq_some.mp hrun
      obtain ⟨hmiddle, hrecovers⟩ := h.step (hbefore label List.mem_cons_self) hnext
      refine ih hmiddle (fun other hother => ?_) hrest
      rw [hrecovers]
      exact hbefore other (List.mem_cons_of_mem _ hother)

/-- From any state with the breaker open and no thread about to change that, until the recovery time
is over and whatever the calls do: the breaker stays open, and every call of
`proxy_to_backend_pooled` that had not been let through before, or begins only now, gets no
connection. The pool is accounted for as it is without the breaker. -/
theorem open_breaker_fails_fast {poolSize : Int} {clock : Nat → Int} {succeeds : Nat → Bool}
    {pool : BackendPool} (hcreate : backendPoolCreate poolSize clock succeeds = some pool)
    {breaker : CircuitBreaker} {calls : Nat} {first labels : List ProxyLabel} {s s' : Proxies}
    (hfirst : run Proxies.next (.start pool breaker calls) first = some s)
    (htripped : s.breaker.Tripped)
    (hbefore : ∀ label ∈ labels, label.Before s.breaker.breaker.recoversAt)
    (hrun : run Proxies.next s labels = some s') :
    s'.breaker.breaker.state = .opened ∧
      (∀ c call, s.Unserved c ∨ s.world.calls.length ≤ c → s'.world.calls[c]? = some call →
        call.caller = .proxy → call.obtained = [] ∧ (call.pc = .begun ∨ call.pc = .finished)) ∧
      s'.world.InBooks := by
  have haligned : s.stages.length = s.world.calls.length :=
    run_preserves (fun _ _ _ haligned hnext => (proxies_move hnext).aligned haligned) rfl hfirst
  have hstart : s.FailsFast fun c => s.Unserved c ∨ s.world.calls.length ≤ c := by
    refine ⟨htripped, haligned, fun c call hbarred hc _ => hbarred.resolve_right fun hle => ?_⟩
    exact Nat.not_le.mpr (List.getElem?_eq_some_iff.mp hc).1 hle
  have hfinal := hstart.run hbefore hrun
  refine ⟨hfinal.tripped.opened, fun c call hbarred hc hcaller => ?_, ?_⟩
  · obtain ⟨_, hsame, -, hnone, hpc⟩ := hfinal.unserved c call hbarred hc hcaller
    cases hc.symm.trans hsame
    exact ⟨hnone, hpc.symm.imp And.left id⟩
  · have hall : run Proxies.next (.start pool breaker calls) (first ++ labels) = some s' := by
      rw [run_append, hfirst]
      exact hrun
    obtain ⟨⟨steps, hsteps⟩, -⟩ := proxies_project hall
    exact run_in_books hcreate hsteps

/-- A request is let through, cannot be sent, and opens the breaker at time 10. -/
def opensBreaker : List ProxyLabel :=
  [.call .proxy, .enter 0, .operate 0 10] ++
    List.replicate 5 (.pool 0 smoothEnv) ++
    List.replicate 2 (.pool 0 { smoothEnv with sendOk := false }) ++
    .enter 0 :: List.replicate 6 (.operate 0 10)

/-- The first request opens the breaker, and the second never gets a connection, whatever happens
until the recovery time. -/
theorem next_request_refused :
    ∃ pool s, backendPoolCreate 1 (fun _ => 0) (fun _ => true) = some pool ∧
      run Proxies.next (.start pool touchyBreaker 2) opensBreaker = some s ∧
      ∀ labels s', (∀ label ∈ labels, label.Before 40) → run Proxies.next s labels = some s' →
        ∀ call, s'.world.calls[1]? = some call → call.caller = .proxy → call.obtained = [] := by
  have hcreate : backendPoolCreate 1 (fun _ => 0) (fun _ => true) =
      some ⟨[createBackendConnection 0], 0, 1⟩ := rfl
  obtain ⟨s, hfirst, henabled, hopened, hidle, hcalls, hrecovers⟩ :
      ∃ s, run Proxies.next (.start ⟨[createBackendConnection 0], 0, 1⟩ touchyBreaker 2)
          opensBreaker = some s ∧
        (s.breaker.breaker.enabled = true ∧ s.breaker.breaker.state = .opened ∧
          (∀ point ∈ s.breaker.threads, point.settled = true) ∧ s.world.calls.length = 1 ∧
          s.breaker.breaker.recoversAt = 40) := exists_final (by decide +kernel)
  refine ⟨_, s, hcreate, hfirst, fun labels s' hbefore hrun call hc hcaller => ?_⟩
  rw [← hrecovers] at hbefore
  obtain ⟨-, hbarred, -⟩ := open_breaker_fails_fast hcreate hfirst ⟨henabled, hopened, hidle⟩
    hbefore hrun
  exact (hbarred 1 call (.inr (Nat.le_of_eq hcalls)) hc hcaller).1

end Emme.Backend
