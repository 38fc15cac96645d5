import Emme.Backend.Recovery

/-!
# The figures of the pool while calls are under way

`backend_pool_release` clears `in_use` before it updates the counters and does not take the pool
lock, so that another call can take the connection and be counted in between. `pool_figures_iff`
says when `active_count` and `idle_count` stay between zero and the size.
-/

namespace Emme.Backend

open Execution Threads

/-! ## The figures -/

/-- `backend_pool_get_active_count`. -/
def backendPoolGetActiveCount (pool : BackendPool) : Int := pool.activeCount

/-- `backend_pool_get_idle_count`. -/
def backendPoolGetIdleCount (pool : BackendPool) : Int := pool.idleCount

/-- `backend_pool_get_healthy_count`. -/
def backendPoolGetHealthyCount (pool : BackendPool) : Nat :=
  pool.conns.countP fun conn => conn.health = .healthy

/-- What `backend_pool_update_metrics` reports: active, idle and healthy connections. -/
def backendPoolUpdateMetrics (pool : BackendPool) : Int × Int × Nat :=
  (pool.activeCount, pool.idleCount, backendPoolGetHealthyCount pool)

/-- No figure is negative or larger than the pool. -/
def BackendPool.InBounds (pool : BackendPool) : Prop :=
  (0 ≤ backendPoolGetActiveCount pool ∧
      backendPoolGetActiveCount pool ≤ pool.conns.length) ∧
    0 ≤ backendPoolGetIdleCount pool ∧ backendPoolGetIdleCount pool ≤ pool.conns.length

instance (pool : BackendPool) : Decidable pool.InBounds := inferInstanceAs (Decidable (_ ∧ _))

/-! ## Phases of acquire and release -/

/-- The call has taken a connection and not yet updated `active_count`. -/
def Pc.taking : Pc → Bool
  | .took _ => true
  | _ => false

/-- The call has taken a connection and not yet updated `idle_count`. -/
def Pc.entering : Pc → Bool
  | .took _ => true
  | .counted _ => true
  | _ => false

/-- The call has freed its connection and not yet updated `active_count`. -/
def Pc.leaving : Pc → Bool
  | .released _ => true
  | _ => false

/-- The call has freed its connection and not yet updated `idle_count`. -/
def Pc.unsettled : Pc → Bool
  | .released _ => true
  | .uncounted _ => true
  | _ => false

/-- The connections that an acquire could take. -/
def BackendPool.freeCount (pool : BackendPool) : Nat := pool.conns.countP fun conn => !conn.inUse

/-- When a call at this point updates a counter for an acquire, there is a free connection for
every release that has not updated the counter yet. -/
def Pc.HasRoom (w : World) : Pc → Prop
  | .took _ => w.calls.countP (fun call => call.pc.leaving) ≤ w.pool.freeCount
  | .counted _ => w.calls.countP (fun call => call.pc.unsettled) ≤ w.pool.freeCount
  | _ => True

instance (w : World) : (pc : Pc) → Decidable (pc.HasRoom w)
  | .took _ | .counted _ => inferInstanceAs (Decidable (_ ≤ _))
  | .begun | .acquiring | .scanning _ _ | .got _ | .sent _ | .marking _ _ | .releasing _
  | .released _ | .uncounted _ | .finished => isTrue trivial

/-- The step of a call has the room it needs. -/
def RoomForFigures (w : World) : Label → Prop
  | .call _ => True
  | .step c _ => ∀ call ∈ w.calls[c]?, call.pc.HasRoom w

instance (w : World) : (label : Label) → Decidable (RoomForFigures w label)
  | .call _ => isTrue trivial
  | .step c _ => inferInstanceAs (Decidable (∀ call ∈ w.calls[c]?, call.pc.HasRoom w))

/-! ## The lock -/

/-- The lock is taken exactly when one call is inside `backend_pool_acquire`. -/
def World.LockCounted (w : World) : Prop :=
  w.calls.countP (fun call => call.pc.inAcquire) = w.lock.isSome.toNat

variable {w w' : World} {c : Nat} {call : Call} {label : Label}

/-- A step of a caller keeps the pool lock to one caller inside `backend_pool_acquire`. -/
theorem advance_lock_counted {env : Env} (h : w.LockCounted) (hc : w.calls[c]? = some call)
    (hstep : w.advance c call env = some w') : w'.LockCounted := by
  -- a call that stays inside or outside, under the same lock
  have hkeep (call' : Call) (w' : World) (hcalls : w'.calls = w.calls.set c call')
      (hlock : w'.lock = w.lock) (hsame : call'.pc.inAcquire = call.pc.inAcquire) :
      w'.LockCounted := by
    have hcount := count_set_add (fun call : Call => call.pc.inAcquire) hc call'
    have hbefore : w.calls.countP (fun call => call.pc.inAcquire) = _ := h
    rw [World.LockCounted, hcalls, hlock]
    rw [hsame] at hcount
    omega
  -- a call that leaves and gives the lock back
  have hleave (call' : Call) (w' : World) (hcalls : w'.calls = w.calls.set c call')
      (hlock : w'.lock = none) (hinside : call.pc.inAcquire = true)
      (houtside : call'.pc.inAcquire = false) : w'.LockCounted := by
    have hcount := count_set_add (fun call : Call => call.pc.inAcquire) hc call'
    have hbefore : w.calls.countP (fun call => call.pc.inAcquire) = _ := h
    rw [World.LockCounted, hcalls, hlock]
    simp only [hinside, houtside, Bool.toNat_true, Bool.toNat_false] at hcount
    have hone : w.lock.isSome.toNat ≤ 1 := Bool.toNat_le _
    simp only [Option.isSome_none, Bool.toNat_false]
    omega
  obtain ⟨caller, pc, obtained, givenBack⟩ := call
  unfold World.advance at hstep
  cases pc with
  | begun =>
      cases hstep
      refine hkeep _ _ rfl rfl ?_
      dsimp only
      split <;> rfl
  | acquiring =>
      simp only at hstep
      split at hstep
      · rename_i hfree
        cases hstep
        have hbefore : w.calls.countP (fun call => call.pc.inAcquire) = 0 := by
          rw [h, hfree]
          rfl
        have hcount := count_set_add (fun call : Call => call.pc.inAcquire) hc
          ⟨caller, .scanning 0 env.now, obtained, givenBack⟩
        rw [hbefore] at hcount
        exact hcount
      · cases hstep
  | scanning i now =>
      simp only at hstep
      split at hstep
      · cases hstep
        exact hleave _ _ rfl rfl rfl rfl
      · cases hstep
        refine hkeep _ _ rfl rfl ?_
        dsimp only
        split <;> rfl
  | counted i =>
      cases hstep
      exact hleave _ _ rfl rfl rfl rfl
  | got i =>
      cases hstep
      refine hkeep _ _ rfl rfl ?_
      dsimp only
      split <;> rfl
  | took i =>
      cases hstep
      exact hkeep _ _ rfl rfl rfl
  | sent i =>
      cases hstep
      exact hkeep _ _ rfl rfl rfl
  | marking i success =>
      cases hstep
      exact hkeep _ _ rfl rfl rfl
  | releasing i =>
      cases hstep
      exact hkeep _ _ rfl rfl rfl
  | released i =>
      cases hstep
      exact hkeep _ _ rfl rfl rfl
  | uncounted i =>
      cases hstep
      exact hkeep _ _ rfl rfl rfl
  | finished => cases hstep

/-- What every state of a run satisfies. -/
def World.Kept (w : World) : Prop := Accounted w.pool w.calls ∧ w.LockCounted

/-- Every step keeps the account and the lock. -/
theorem next_kept (h : w.Kept) (hnext : w.next label = some w') : w'.Kept := by
  obtain ⟨haccount, hlock⟩ := h
  rcases next_eq_some hnext with ⟨caller, rfl⟩ | ⟨c, call, env, hc, hadvance⟩
  · refine ⟨haccount.call caller, ?_⟩
    rw [World.LockCounted, List.countP_append]
    exact hlock
  · exact ⟨advance_accounted haccount hc hadvance, advance_lock_counted hlock hc hadvance⟩

/-! ## The bounds -/

/-- The figures are in bounds when the calls that are counted are not more than the
connections. -/
theorem in_bounds_iff {pool : BackendPool} {calls : List Call} (h : Accounted pool calls) :
    pool.InBounds ↔
      calls.countP (fun call => call.pc.inActive) ≤ pool.conns.length ∧
        calls.countP (fun call => call.pc.offIdle) ≤ pool.conns.length := by
  have hactive := h.active
  have hidle := h.idle
  rw [BackendPool.InBounds, backendPoolGetActiveCount, backendPoolGetIdleCount]
  omega

/-- The calls in `active_count` and those about to be are the ones that hold a connection and
those that have freed theirs too early. -/
theorem active_phases (calls : List Call) :
    calls.countP (fun call => call.pc.inActive) + calls.countP (fun call => call.pc.taking) =
      calls.countP (fun call => call.pc.holds.isSome) +
        calls.countP fun call => call.pc.leaving := by
  refine count_add_count (fun call => ?_) calls
  obtain ⟨caller, pc, obtained, givenBack⟩ := call
  cases pc <;> rfl

/-- The connections that `idle_count` lacks are those that are held, up to the callers between two
updates. -/
theorem idle_phases (calls : List Call) :
    calls.countP (fun call => call.pc.offIdle) + calls.countP (fun call => call.pc.entering) =
      calls.countP (fun call => call.pc.holds.isSome) +
        calls.countP fun call => call.pc.unsettled := by
  refine count_add_count (fun call => ?_) calls
  obtain ⟨caller, pc, obtained, givenBack⟩ := call
  cases pc <;> rfl

/-- Every connection is held or free. -/
theorem free_count_eq {pool : BackendPool} {calls : List Call} (h : Accounted pool calls) :
    calls.countP (fun call => call.pc.holds.isSome) + pool.freeCount = pool.conns.length := by
  have hlength := List.length_eq_countP_add_countP (fun conn : BackendConn => conn.inUse)
    (l := pool.conns)
  have hnot : pool.conns.countP (fun conn => decide (¬ conn.inUse = true)) = pool.freeCount :=
    List.countP_congr fun conn _ => by cases conn.inUse <;> decide
  rw [hnot, h.in_use] at hlength
  exact hlength.symm

/-- Only one call is inside `backend_pool_acquire`, so it is the only one in its phase. -/
theorem phase_eq_one (hlock : w.LockCounted) (hc : w.calls[c]? = some call) (phase : Pc → Bool)
    (hcall : phase call.pc = true) (hphase : ∀ pc, phase pc = true → pc.inAcquire = true) :
    w.calls.countP (fun call => phase call.pc) = 1 := by
  have hpos : 0 < w.calls.countP fun call => phase call.pc :=
    List.countP_pos_iff.mpr ⟨call, List.mem_of_getElem? hc, hcall⟩
  have hle : w.calls.countP (fun call => phase call.pc) ≤
      w.calls.countP fun call => call.pc.inAcquire :=
    List.countP_mono_left fun call _ => hphase call.pc
  have hone : w.lock.isSome.toNat ≤ 1 := Bool.toNat_le _
  rw [hlock] at hle
  omega

/-- A call that moves without entering the two counts leaves the figures in bounds. -/
theorem move_in_bounds {call' : Call} (haccount : Accounted w.pool w.calls)
    (haccount' : Accounted w'.pool w'.calls) (hc : w.calls[c]? = some call)
    (hcalls : w'.calls = w.calls.set c call')
    (hlength : w'.pool.conns.length = w.pool.conns.length)
    (hactive : call'.pc.inActive = true → call.pc.inActive = true)
    (hidle : call'.pc.offIdle = true → call.pc.offIdle = true) (h : w.pool.InBounds) :
    w'.pool.InBounds := by
  have hcountActive := count_set_add (fun call : Call => call.pc.inActive) hc call'
  have hcountIdle := count_set_add (fun call : Call => call.pc.offIdle) hc call'
  have hleActive : call'.pc.inActive.toNat ≤ call.pc.inActive.toNat := by
    cases hphase : call'.pc.inActive with
    | false => exact Nat.zero_le _
    | true => rw [hactive hphase]
  have hleIdle : call'.pc.offIdle.toNat ≤ call.pc.offIdle.toNat := by
    cases hphase : call'.pc.offIdle with
    | false => exact Nat.zero_le _
    | true => rw [hidle hphase]
  rw [in_bounds_iff haccount] at h
  rw [in_bounds_iff haccount', hcalls, hlength]
  omega

/-- A step leads to figures in bounds exactly if it has the room it needs. -/
theorem advance_in_bounds_iff {env : Env} (h : w.Kept) (hbounds : w.pool.InBounds)
    (hc : w.calls[c]? = some call) (hstep : w.advance c call env = some w') :
    w'.pool.InBounds ↔ call.pc.HasRoom w := by
  obtain ⟨haccount, hlock⟩ := h
  have haccount' := advance_accounted haccount hc hstep
  have hfree := free_count_eq haccount
  have hbefore := (in_bounds_iff haccount).mp hbounds
  obtain ⟨caller, pc, obtained, givenBack⟩ := call
  unfold World.advance at hstep
  cases pc with
  | took i =>
      cases hstep
      have hactive := active_phases w.calls
      have hone := phase_eq_one hlock hc Pc.taking rfl fun pc hpc => by
        cases pc <;> first | rfl | cases hpc
      have hcountActive := count_set_add (fun call : Call => call.pc.inActive) hc
        ⟨caller, .counted i, obtained, givenBack⟩
      have hcountIdle := count_set_add (fun call : Call => call.pc.offIdle) hc
        ⟨caller, .counted i, obtained, givenBack⟩
      rw [in_bounds_iff haccount', Pc.HasRoom]
      change _ + 0 = _ + 1 at hcountActive
      change _ + 0 = _ + 0 at hcountIdle
      simp only [World.update]
      omega
  | counted i =>
      cases hstep
      have hidle := idle_phases w.calls
      have hone := phase_eq_one hlock hc Pc.entering rfl fun pc hpc => by
        cases pc <;> first | rfl | cases hpc
      have hcountActive := count_set_add (fun call : Call => call.pc.inActive) hc
        ⟨caller, .got i, obtained ++ [i], givenBack⟩
      have hcountIdle := count_set_add (fun call : Call => call.pc.offIdle) hc
        ⟨caller, .got i, obtained ++ [i], givenBack⟩
      rw [in_bounds_iff haccount', Pc.HasRoom]
      change _ + 1 = _ + 1 at hcountActive
      change _ + 0 = _ + 1 at hcountIdle
      simp only [World.update]
      omega
  | begun =>
      cases hstep
      refine iff_of_true (move_in_bounds haccount haccount' hc rfl rfl ?_ ?_ hbounds) trivial
      all_goals
        dsimp only
        split <;> exact id
  | acquiring =>
      simp only at hstep
      split at hstep
      · cases hstep
        exact iff_of_true (move_in_bounds haccount haccount' hc rfl rfl id id hbounds) trivial
      · cases hstep
  | scanning i now =>
      simp only at hstep
      split at hstep
      · cases hstep
        exact iff_of_true (move_in_bounds haccount haccount' hc rfl rfl id id hbounds) trivial
      · cases hstep
        refine iff_of_true
          (move_in_bounds haccount haccount' hc rfl List.length_set ?_ ?_ hbounds) trivial
        all_goals
          dsimp only
          split <;> exact id
  | got i =>
      cases hstep
      refine iff_of_true (move_in_bounds haccount haccount' hc rfl rfl ?_ ?_ hbounds) trivial
      all_goals exact fun _ => rfl
  | sent i =>
      cases hstep
      exact iff_of_true (move_in_bounds haccount haccount' hc rfl rfl id id hbounds) trivial
  | marking i success | releasing i =>
      cases hstep
      exact iff_of_true
        (move_in_bounds haccount haccount' hc rfl (List.length_modify _ _ _) id id hbounds) trivial
  | released i =>
      cases hstep
      refine iff_of_true (move_in_bounds haccount haccount' hc rfl rfl ?_ id hbounds) trivial
      exact fun _ => rfl
  | uncounted i =>
      cases hstep
      refine iff_of_true (move_in_bounds haccount haccount' hc rfl rfl id ?_ hbounds) trivial
      exact fun _ => rfl
  | finished => cases hstep

/-- The same for any step. -/
theorem next_in_bounds_iff (h : w.Kept) (hbounds : w.pool.InBounds)
    (hnext : w.next label = some w') : w'.pool.InBounds ↔ RoomForFigures w label := by
  cases label with
  | call caller =>
      cases hnext
      exact iff_of_true hbounds trivial
  | step c env =>
      rw [World.next] at hnext
      rw [RoomForFigures]
      split at hnext
      · cases hnext
      · rename_i call hc
        rw [advance_in_bounds_iff h hbounds hc hnext, hc]
        exact ⟨fun hroom other hother => Option.some.inj hother ▸ hroom,
          fun hroom => hroom call rfl⟩

/-- A call that has a counter to update is never blocked. -/
theorem disabled_has_room (h : w.next label = none) : RoomForFigures w label := by
  cases label with
  | call caller => trivial
  | step c env =>
      intro call hc
      rw [World.next, hc] at h
      obtain ⟨caller, pc, obtained, givenBack⟩ := call
      cases pc with
      | took i => cases h
      | counted i => cases h
      | _ => trivial

/-- In every run, the figures are in bounds at every instant exactly if every update of a counter
by an acquire finds a free connection for each release that has not made its own update. -/
theorem pool_figures_iff {poolSize : Int} {clock : Nat → Int} {succeeds : Nat → Bool}
    {pool : BackendPool} (hcreate : backendPoolCreate poolSize clock succeeds = some pool)
    (labels : List Label) :
    Always World.next (fun w => w.pool.InBounds) (World.start pool) labels ↔
      Throughout World.next RoomForFigures (World.start pool) labels := by
  have haccount := create_accounted hcreate
  refine always_iff_throughout World.Kept (fun _ _ _ => next_kept)
    (fun _ _ _ => next_in_bounds_iff) (fun _ _ => disabled_has_room) ⟨haccount, rfl⟩ ?_
  exact (in_bounds_iff haccount).mpr ⟨Nat.zero_le _, Nat.zero_le _⟩

/-- A proxied request and a health check that overlap leave the figures within their bounds. -/
theorem overlapping_calls_in_bounds :
    ∃ pool, backendPoolCreate 2 (fun _ => 0) (fun _ => true) = some pool ∧
      Always World.next (fun w => w.pool.InBounds) (World.start pool) overlappingCalls := by
  have hcreate : backendPoolCreate 2 (fun _ => 0) (fun _ => true) =
      some ⟨[createBackendConnection 0, createBackendConnection 0], 0, 2⟩ := rfl
  exact ⟨_, hcreate, (pool_figures_iff hcreate overlappingCalls).mpr (by decide +kernel)⟩

/-- A second call takes the only connection while the first one is inside
`backend_pool_release`. -/
def hastyCalls : List Label :=
  [.call .proxy, .call .proxy] ++ ownSteps 0 (fun _ => smoothEnv) 9 ++
    ownSteps 1 (fun _ => smoothEnv) 5

/-- One connection, two of them active, and minus one idle. -/
theorem hasty_calls_out_of_bounds :
    ∃ pool w, backendPoolCreate 1 (fun _ => 0) (fun _ => true) = some pool ∧
      run World.next (World.start pool) hastyCalls = some w ∧
      backendPoolUpdateMetrics w.pool = (2, -1, 0) ∧
      ¬ Always World.next (fun w => w.pool.InBounds) (World.start pool) hastyCalls := by
  have hcreate : backendPoolCreate 1 (fun _ => 0) (fun _ => true) =
      some ⟨[createBackendConnection 0], 0, 1⟩ := rfl
  obtain ⟨w, hrun, hmetrics, hbounds⟩ : ∃ w, run World.next
      (World.start ⟨[createBackendConnection 0], 0, 1⟩) hastyCalls = some w ∧
        backendPoolUpdateMetrics w.pool = (2, -1, 0) ∧ ¬ w.pool.InBounds :=
    exists_final (by decide +kernel)
  refine ⟨_, w, hcreate, hrun, hmetrics, fun halways => ?_⟩
  exact hbounds (halways hastyCalls (List.prefix_refl _) w hrun)

end Emme.Backend
