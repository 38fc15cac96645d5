import Emme.Backend.Callers

/-!
# Recovery of unhealthy connections

Only a caller that holds a connection calls `backend_pool_mark_success`, and `backend_pool_acquire`
passes over unhealthy ones. So a pool whose connections are all unhealthy is stuck, and
`recovers_iff` says that nothing else is: from any state in which none is held, a backend that does
everything right is reached again exactly if some connection is not unhealthy.
-/

namespace Emme.Backend

open Execution Threads

/-- No connection is held. -/
def World.NoneHeld (w : World) : Prop := ∀ conn ∈ w.pool.conns, conn.inUse = false

/-- Connecting, sending and receiving succeed. -/
def Env.Succeeds (env : Env) : Prop :=
  env.reconnect.initOk = true ∧ env.reconnect.connectOk = true ∧ env.sendOk = true ∧ 0 < env.ret

/-- A step with a backend that does everything right, at any time. -/
def Label.Succeeds : Label → Prop
  | .call _ => True
  | .step _ env => env.Succeeds

/-- Some call of `backend_pool_acquire` has just returned a connection. -/
def World.Obtained (w : World) : Prop :=
  ∃ (c i : Nat) (call : Call), w.calls[c]? = some call ∧ call.pc = .got i

/-- Some continuation with a backend that does everything right leads to such a state. -/
def World.Reaches (w : World) (goal : World → Prop) : Prop :=
  ∃ labels w', (∀ label ∈ labels, label.Succeeds) ∧ run World.next w labels = some w' ∧ goal w'

/-- Some continuation with a backend that does everything right leads to a successful
`backend_pool_acquire`. -/
def World.Recovers (w : World) : Prop := w.Reaches World.Obtained

/-! ## The trap -/

/-- Every connection is unhealthy and no call holds one. -/
structure World.Trapped (w : World) : Prop where
  unhealthy : ∀ conn ∈ w.pool.conns, conn.health = .unhealthy
  none_held : ∀ call ∈ w.calls, call.pc.holds = none

variable {w w' : World} {call : Call} {c : Nat} {goal : World → Prop} {conn : BackendConn}
  {obtained givenBack : List Nat}

/-- A step after which the connections are as they were and the call that moved holds nothing. -/
theorem World.Trapped.move (h : w.Trapped) {pool : BackendPool}
    (hconns : pool.conns = w.pool.conns) (hholds : call.pc.holds = none) (lock : Option Nat)
    (c : Nat) : (⟨pool, lock, w.calls.set c call⟩ : World).Trapped := by
  refine ⟨fun conn hconn => h.unhealthy conn (hconns ▸ hconn), fun other hother => ?_⟩
  rcases List.mem_or_eq_of_mem_set hother with hother | rfl
  · exact h.none_held other hother
  · exact hholds

/-- No step leads out of the trap. -/
theorem next_trapped {label : Label} (h : w.Trapped) (hnext : w.next label = some w') :
    w'.Trapped := by
  rcases next_eq_some hnext with ⟨caller, rfl⟩ | ⟨c, call, env, hc, hstep⟩
  · refine ⟨h.unhealthy, fun call hcall => ?_⟩
    rcases List.mem_append.mp hcall with hcall | hcall
    · exact h.none_held call hcall
    · rw [List.mem_singleton.mp hcall]
      rfl
  · have hnone := h.none_held call (List.mem_of_getElem? hc)
    obtain ⟨caller, pc, obtained, givenBack⟩ := call
    unfold World.advance at hstep
    cases pc with
    | begun =>
        cases hstep
        refine h.move rfl ?_ _ c
        simp only
        split <;> rfl
    | acquiring =>
        simp only at hstep
        split at hstep
        · cases hstep
          exact h.move rfl rfl _ c
        · cases hstep
    | scanning i now =>
        simp only at hstep
        split at hstep
        · cases hstep
          exact h.move rfl rfl _ c
        · rename_i conn hconn
          have hunhealthy := h.unhealthy conn (List.mem_of_getElem? hconn)
          have hpassed : conn.tryAcquire now env.reconnect = (conn, false) :=
            if_neg fun heligible => heligible.2 hunhealthy
          rw [hpassed] at hstep
          cases hstep
          exact h.move (set_get_self hconn) rfl _ c
    | released i =>
        cases hstep
        refine h.move ?_ ?_ _ c <;> rfl
    | uncounted i =>
        cases hstep
        refine h.move ?_ ?_ _ c <;> rfl
    | finished => cases hstep
    | _ => cases hnone

/-- A trapped pool hands out no connection, whatever happens. -/
theorem World.Trapped.not_recovers (h : w.Trapped) : ¬ w.Recovers := by
  rintro ⟨labels, w', -, hrun, c, i, call, hc, hpc⟩
  have htrapped : w'.Trapped := run_preserves (fun _ _ _ => next_trapped) h hrun
  have hnone := htrapped.none_held call (List.mem_of_getElem? hc)
  rw [hpc] at hnone
  cases hnone

/-- If no connection is in use, no call holds one. -/
theorem World.InBooks.none_held (h : w.InBooks) (hnone : w.NoneHeld) :
    ∀ call ∈ w.calls, call.pc.holds = none := by
  have hzero : w.pool.conns.countP (fun conn => conn.inUse) = 0 :=
    List.countP_eq_zero.mpr fun conn hconn => by simp [hnone conn hconn]
  rw [h.1.in_use, List.countP_eq_zero] at hzero
  intro call hcall
  simpa using hzero call hcall

/-! ## The way out -/

/-- The call has the pool lock. -/
def Pc.inAcquire : Pc → Bool
  | .scanning _ _ => true
  | .took _ => true
  | .counted _ => true
  | _ => false

/-- The owner of the pool lock is inside `backend_pool_acquire`. -/
def World.LockOwned (w : World) : Prop :=
  ∀ c, w.lock = some c → ∃ call, w.calls[c]? = some call ∧ call.pc.inAcquire = true

/-- A step leaves the lock free, takes it, or leaves it where it is. -/
theorem advance_lock {env : Env} (h : w.advance c call env = some w') :
    ∃ call', w'.calls = w.calls.set c call' ∧
      (w'.lock = none ∨ call'.pc.inAcquire = true ∧ w'.lock = some c ∨
        w'.lock = w.lock ∧ (call.pc.inAcquire = true → call'.pc.inAcquire = true)) := by
  obtain ⟨caller, pc, obtained, givenBack⟩ := call
  unfold World.advance at h
  cases pc with
  | acquiring =>
      simp only at h
      split at h
      · cases h
        exact ⟨_, rfl, Or.inr (Or.inl ⟨rfl, rfl⟩)⟩
      · cases h
  | scanning i now =>
      simp only at h
      split at h
      · cases h
        exact ⟨_, rfl, Or.inl rfl⟩
      · cases h
        refine ⟨_, rfl, Or.inr (Or.inr ⟨rfl, fun _ => ?_⟩)⟩
        simp only
        split <;> rfl
  | took i =>
      cases h
      exact ⟨_, rfl, Or.inr (Or.inr ⟨rfl, fun _ => rfl⟩)⟩
  | counted i =>
      cases h
      exact ⟨_, rfl, Or.inl rfl⟩
  | finished => cases h
  | _ =>
      cases h
      exact ⟨_, rfl, Or.inr (Or.inr ⟨rfl, fun hacquire => by cases hacquire⟩)⟩

/-- Every step keeps the pool lock with a caller that is inside `backend_pool_acquire`. -/
theorem next_lock_owned {label : Label} (h : w.LockOwned) (hnext : w.next label = some w') :
    w'.LockOwned := by
  intro owner howner
  rcases next_eq_some hnext with ⟨caller, rfl⟩ | ⟨c, call, env, hc, hstep⟩
  · obtain ⟨call, hcall, hpc⟩ := h owner howner
    have hlt := (List.getElem?_eq_some_iff.mp hcall).1
    exact ⟨call, by rwa [List.getElem?_append_left hlt], hpc⟩
  · have hlt := (List.getElem?_eq_some_iff.mp hc).1
    obtain ⟨call', hcalls, hfree | ⟨hacquire, htaken⟩ | ⟨hsame, hkeep⟩⟩ := advance_lock hstep
    · cases hfree.symm.trans howner
    · obtain rfl : c = owner := Option.some.inj (htaken.symm.trans howner)
      exact ⟨call', by rw [hcalls, List.getElem?_set_self hlt], hacquire⟩
    · obtain ⟨other, hother, hpc⟩ := h owner (hsame ▸ howner)
      by_cases hown : c = owner
      · subst hown
        cases hc.symm.trans hother
        exact ⟨call', by rw [hcalls, List.getElem?_set_self hlt], hkeep hpc⟩
      · exact ⟨other, by rw [hcalls, List.getElem?_set_ne hown, hother], hpc⟩

/-- The lock is owned in every state that a run reaches. -/
theorem run_lock_owned {pool : BackendPool} {labels : List Label}
    (hrun : run World.next (World.start pool) labels = some w) : w.LockOwned := by
  have hstart : (World.start pool).LockOwned := by
    intro owner howner
    cases howner
  exact run_preserves (fun _ _ _ => next_lock_owned) hstart hrun

/-- What holds is reached. -/
theorem World.Reaches.refl (h : goal w) : w.Reaches goal :=
  ⟨[], w, fun _ hlabel => absurd hlabel List.not_mem_nil, rfl, h⟩

/-- What is reached from every state of a kind is reached from where that kind is reached. -/
theorem World.Reaches.trans {middle : World → Prop} (h : w.Reaches middle)
    (hmiddle : ∀ w', middle w' → w'.Reaches goal) : w.Reaches goal := by
  obtain ⟨labels, w', hlabels, hrun, hgoal⟩ := h
  obtain ⟨more, w'', hmore, hrun', hgoal'⟩ := hmiddle w' hgoal
  refine ⟨labels ++ more, w'', fun l hl => ?_, ?_, hgoal'⟩
  · rcases List.mem_append.mp hl with hl | hl
    · exact hlabels l hl
    · exact hmore l hl
  · rw [run_append, hrun]
    exact hrun'

/-- One step in front. -/
theorem World.Reaches.cons {w w' : World} {goal : World → Prop} {label : Label}
    (hlabel : label.Succeeds) (hnext : w.next label = some w') (h : w'.Reaches goal) :
    w.Reaches goal := by
  have hfirst : w.Reaches (· = w') := by
    refine ⟨[label], w', fun l hl => ?_, run_cons_eq_some.mpr ⟨w', hnext, rfl⟩, rfl⟩
    rwa [List.mem_singleton.mp hl]
  exact hfirst.trans fun _ hw => hw ▸ h

/-- The smooth environment is one in which everything succeeds. -/
theorem smooth_env_succeeds : smoothEnv.Succeeds := ⟨rfl, rfl, rfl, by decide⟩

/-- One step of a call in front, with everything going right. -/
theorem World.Reaches.own_step (hc : w.calls[c]? = some call)
    (hstep : w.advance c call smoothEnv = some w') (h : w'.Reaches goal) : w.Reaches goal := by
  have hlabel : (Label.step c smoothEnv).Succeeds := smooth_env_succeeds
  refine .cons hlabel ?_ h
  rw [World.next, hc]
  exact hstep

/-- The caller that was updated. -/
theorem get_update (hc : w.calls[c]? = some call) (call' : Call) :
    (w.update c call').calls[c]? = some call' :=
  List.getElem?_set_self (List.getElem?_eq_some_iff.mp hc).1

/-- An eligible connection is taken when reconnecting succeeds. -/
theorem try_acquire_eligible (h : conn.Eligible) (now : Int) :
    (conn.tryAcquire now smoothEnv.reconnect).2 = true := by
  rcases try_acquire_cases conn now smoothEnv.reconnect with
    ⟨hnot, _⟩ | ⟨_, _, _, heq⟩ | ⟨_, _, hfailed, _⟩ | ⟨_, _, heq⟩
  · exact absurd h hnot
  · rw [heq]
  · cases hfailed
  · rw [heq]

/-- A call that has taken a connection gets it. -/
theorem took_reaches {i : Nat} {caller : Caller}
    (hc : w.calls[c]? = some ⟨caller, .took i, obtained, givenBack⟩) :
    w.Reaches World.Obtained := by
  refine .own_step hc rfl (.own_step (get_update hc _) rfl (.refl ?_))
  exact ⟨c, i, _, get_update (get_update hc _) _, rfl⟩

/-- A scan ends with a connection, or with the lock free and the pool as it was. A scan that
still has an eligible connection before it ends with one. -/
theorem scan_reaches {caller : Caller} {i : Nat} {now : Int}
    (hc : w.calls[c]? = some ⟨caller, .scanning i now, obtained, givenBack⟩) :
    (w.Reaches fun w' => w'.Obtained ∨ w'.lock = none ∧ w'.pool = w.pool) ∧
      ((∃ j conn, i ≤ j ∧ w.pool.conns[j]? = some conn ∧ conn.Eligible) →
        w.Reaches World.Obtained) := by
  -- by induction on the connections that are left
  induction hleft : w.pool.conns.length - i generalizing w i with
  | zero =>
      have hnone : w.pool.conns[i]? = none := List.getElem?_eq_none (by omega)
      have hstep : w.advance c ⟨caller, .scanning i now, obtained, givenBack⟩ smoothEnv =
          some ({ w with lock := none }.update c ⟨caller, .finished, obtained, givenBack⟩) := by
        simp only [World.advance, hnone]
      refine ⟨.own_step hc hstep (.refl (Or.inr ⟨rfl, rfl⟩)), ?_⟩
      · rintro ⟨j, conn, hij, hconn, -⟩
        have hlt := (List.getElem?_eq_some_iff.mp hconn).1
        omega
  | succ left ih =>
      have hlt : i < w.pool.conns.length := by omega
      obtain ⟨conn, hconn⟩ : ∃ conn, w.pool.conns[i]? = some conn :=
        ⟨_, List.getElem?_eq_getElem hlt⟩
      by_cases heligible : conn.Eligible
      · have hstep : w.advance c ⟨caller, .scanning i now, obtained, givenBack⟩ smoothEnv =
            some ({ w with pool.conns :=
                w.pool.conns.set i (conn.tryAcquire now smoothEnv.reconnect).1 }.update c
              ⟨caller, .took i, obtained, givenBack⟩) := by
          simp only [World.advance, hconn, try_acquire_eligible heligible, if_true]
        have hgot : w.Reaches World.Obtained :=
          .own_step hc hstep (took_reaches (get_update hc _))
        exact ⟨hgot.trans fun _ hw => .refl (Or.inl hw), fun _ => hgot⟩
      · have hpassed : conn.tryAcquire now smoothEnv.reconnect = (conn, false) :=
          if_neg heligible
        have hstep : w.advance c ⟨caller, .scanning i now, obtained, givenBack⟩ smoothEnv =
            some (w.update c ⟨caller, .scanning (i + 1) now, obtained, givenBack⟩) := by
          simp only [World.advance, hconn, hpassed, set_get_self hconn]
          rfl
        have hnext := get_update hc ⟨caller, .scanning (i + 1) now, obtained, givenBack⟩
        have hleft' : w.pool.conns.length - (i + 1) = left := by omega
        obtain ⟨hends, hfinds⟩ := ih hnext hleft'
        refine ⟨.own_step hc hstep hends, ?_⟩
        rintro ⟨j, other, hij, hother, hother'⟩
        refine .own_step hc hstep (hfinds ⟨j, other, ?_, hother, hother'⟩)
        rcases Nat.eq_or_lt_of_le hij with rfl | hlt'
        · cases hconn.symm.trans hother
          exact absurd hother' heligible
        · exact hlt'

/-- With the lock free, a health check that begins finds an eligible connection. -/
theorem begun_reaches (hc : w.calls[c]? = some ⟨.healthCheck, .begun, obtained, givenBack⟩)
    (hlock : w.lock = none) (hconn : conn ∈ w.pool.conns) (heligible : conn.Eligible) :
    w.Reaches World.Obtained := by
  let acquiring : Call := ⟨.healthCheck, .acquiring, obtained, givenBack⟩
  let locked : World := ⟨w.pool, some c, w.calls.set c acquiring⟩
  have hbegin : w.advance c ⟨.healthCheck, .begun, obtained, givenBack⟩ smoothEnv =
      some (w.update c acquiring) := rfl
  have hacquire : (w.update c acquiring).advance c acquiring smoothEnv =
      some (locked.update c ⟨.healthCheck, .scanning 0 0, obtained, givenBack⟩) := if_pos hlock
  have hacquiring : locked.calls[c]? = some acquiring := get_update hc acquiring
  obtain ⟨j, hj⟩ := List.getElem?_of_mem hconn
  refine .own_step hc hbegin (.own_step hacquiring hacquire ?_)
  exact (scan_reaches (get_update hacquiring _)).2 ⟨j, conn, Nat.zero_le j, hj, heligible⟩

/-- With the lock free, a new call finds an eligible connection. -/
theorem new_call_reaches (hlock : w.lock = none) (hconn : conn ∈ w.pool.conns)
    (heligible : conn.Eligible) : w.Reaches World.Obtained := by
  have hcall : (Label.call .healthCheck).Succeeds := trivial
  have hbegun : (w.calls ++ [(⟨.healthCheck, .begun, [], []⟩ : Call)])[w.calls.length]? =
      some ⟨.healthCheck, .begun, [], []⟩ := by
    rw [List.getElem?_append_right (Nat.le_refl _), Nat.sub_self]
    rfl
  exact .cons hcall rfl (begun_reaches hbegun hlock hconn heligible)

/-- **No way back.** From any reachable state in which no connection is held, a backend that does
everything right lets some later `backend_pool_acquire` return a connection exactly if some
connection is not unhealthy. -/
theorem recovers_iff {poolSize : Int} {clock : Nat → Int} {succeeds : Nat → Bool}
    {pool : BackendPool} (hcreate : backendPoolCreate poolSize clock succeeds = some pool)
    {labels : List Label} {w : World} (hrun : run World.next (World.start pool) labels = some w)
    (hnone : w.NoneHeld) :
    w.Recovers ↔ ∃ conn ∈ w.pool.conns, conn.health ≠ .unhealthy := by
  have hcalls := (run_in_books hcreate hrun).none_held hnone
  constructor
  · intro hrecovers
    by_contra hall
    push Not at hall
    exact World.Trapped.not_recovers ⟨hall, hcalls⟩ hrecovers
  · rintro ⟨conn, hconn, hhealth⟩
    have heligible : conn.Eligible := ⟨hnone conn hconn, hhealth⟩
    cases hlock : w.lock with
    | none => exact new_call_reaches hlock hconn heligible
    | some owner =>
        -- a scan is going on: it ends with a connection, or a new call finds one
        obtain ⟨⟨caller, pc, obtained, givenBack⟩, howner, hacquire⟩ :=
          run_lock_owned hrun owner hlock
        have hholds := hcalls _ (List.mem_of_getElem? howner)
        cases pc with
        | scanning i now =>
            refine (scan_reaches howner).1.trans fun w' hend => ?_
            rcases hend with hobtained | ⟨hfree, hpool⟩
            · exact .refl hobtained
            · exact new_call_reaches hfree (hpool ▸ hconn) heligible
        | took i => cases hholds
        | counted i => cases hholds
        | _ => cases hacquire

/-- Proxy call `c`, whose request cannot be sent, from beginning to end. -/
def failedCall (c : Nat) : List Label :=
  .call .proxy :: ownSteps c (fun _ => { smoothEnv with sendOk := false }) 10

/-- A pool with one connection, on which the given number of requests has failed in a row. -/
def failedWorld (failures : Nat) (health : Health) : World where
  pool :=
    ⟨[{ createBackendConnection 0 with consecutiveFailures := failures, health }], 0, 1⟩
  lock := none
  calls := List.replicate failures ⟨.proxy, .finished, [0], [0]⟩

/-- After two failures the connection of the pool can be obtained again. -/
theorem two_failures_recover :
    ∃ pool, backendPoolCreate 1 (fun _ => 0) (fun _ => true) = some pool ∧
      run World.next (World.start pool) (failedCall 0 ++ failedCall 1) =
        some (failedWorld 2 .unknown) ∧
      (failedWorld 2 .unknown).NoneHeld ∧ (failedWorld 2 .unknown).Recovers := by
  have hcreate : backendPoolCreate 1 (fun _ => 0) (fun _ => true) =
      some ⟨[createBackendConnection 0], 0, 1⟩ := rfl
  have hrun : run World.next (World.start ⟨[createBackendConnection 0], 0, 1⟩)
      (failedCall 0 ++ failedCall 1) = some (failedWorld 2 .unknown) := by decide +kernel
  have hnone : (failedWorld 2 .unknown).NoneHeld := by
    unfold World.NoneHeld
    decide
  refine ⟨_, hcreate, hrun, hnone, (recovers_iff hcreate hrun hnone).mpr ?_⟩
  exact ⟨_, List.mem_cons_self, by decide⟩

/-- After three failures it never is. -/
theorem three_failures_stuck :
    ∃ pool, backendPoolCreate 1 (fun _ => 0) (fun _ => true) = some pool ∧
      run World.next (World.start pool) (failedCall 0 ++ failedCall 1 ++ failedCall 2) =
        some (failedWorld 3 .unhealthy) ∧
      (failedWorld 3 .unhealthy).NoneHeld ∧ ¬ (failedWorld 3 .unhealthy).Recovers := by
  have hrun : run World.next (World.start ⟨[createBackendConnection 0], 0, 1⟩)
      (failedCall 0 ++ failedCall 1 ++ failedCall 2) = some (failedWorld 3 .unhealthy) := by
    decide +kernel
  have hnone : (failedWorld 3 .unhealthy).NoneHeld := by
    unfold World.NoneHeld
    decide
  have htrapped : (failedWorld 3 .unhealthy).Trapped := ⟨by decide, by decide⟩
  exact ⟨_, rfl, hrun, hnone, htrapped.not_recovers⟩

end Emme.Backend
