import Emme.Lib.Execution
import Emme.Lib.Threads
import Emme.Backend.Pool

/-!
# The callers of the pool

Any number of `proxy_to_backend_pooled` calls and `health_check_thread` iterations run over one
pool. A step is a section under a connection's lock, or one atomic update of a counter.
`backend_pool_acquire` holds the pool lock from the start of its scan; `backend_pool_release` does
not take it.
-/

namespace Emme.Backend

open Execution Threads

/-! ## The machine -/

/-- The two kinds of callers. -/
inductive Caller where
  | proxy
  | healthCheck
  deriving DecidableEq, Repr

/-- Which return values of `http2_client_recv_response` count as success: `status > 0` in
`proxy_to_backend_pooled`, a status from 200 to 399 in `perform_health_check`. -/
def Caller.accepts : Caller → Int → Bool
  | .proxy, ret => 0 < ret
  | .healthCheck, ret => 200 ≤ ret && ret < 400

/-- Where a caller is. `scanning` is the loop of `backend_pool_acquire` at a connection; `took` and
`counted` are inside the same call, before `active_count` and before `idle_count` is updated. From
`got` on the caller has the connection. `released` and `uncounted` are inside
`backend_pool_release`, before the two counters are updated. -/
inductive Pc where
  | begun
  | acquiring
  | scanning (i : Nat) (now : Int)
  | took (i : Nat)
  | counted (i : Nat)
  | got (i : Nat)
  | sent (i : Nat)
  | marking (i : Nat) (success : Bool)
  | releasing (i : Nat)
  | released (i : Nat)
  | uncounted (i : Nat)
  | finished
  deriving DecidableEq, Repr

/-- A call, with the connections it has obtained from `backend_pool_acquire` and those it has
given to `backend_pool_release` so far. -/
structure Call where
  caller : Caller
  pc : Pc
  obtained : List Nat
  givenBack : List Nat
  deriving DecidableEq, Repr

/-- The pool, the owner of its lock, and the calls so far. -/
structure World where
  pool : BackendPool
  lock : Option Nat
  calls : List Call
  deriving DecidableEq, Repr

/-- What a step may depend on: the clock, the circuit breaker, and the outcomes of connecting,
sending and receiving. -/
structure Env where
  now : Int
  allowed : Bool
  reconnect : Reconnect
  sendOk : Bool
  ret : Int
  deriving DecidableEq, Repr

/-- A new call, or a step of an existing one. -/
inductive Label where
  | call (caller : Caller)
  | step (c : Nat) (env : Env)
  deriving DecidableEq, Repr

/-- Call `c` becomes `call`. -/
def World.update (w : World) (c : Nat) (call : Call) : World :=
  { w with calls := w.calls.set c call }

/-- One step of call `c`; `none` if it is blocked or has finished. -/
def World.advance (w : World) (c : Nat) (call : Call) (env : Env) : Option World :=
  match call.pc with
  | .begun =>
      let rejected := call.caller = .proxy ∧ env.allowed = false
      some (w.update c { call with pc := if rejected then .finished else .acquiring })
  | .acquiring =>
      if w.lock = none then
        some ({ w with lock := some c }.update c { call with pc := .scanning 0 env.now })
      else none
  | .scanning i now =>
      match w.pool.conns[i]? with
      | none => some ({ w with lock := none }.update c { call with pc := .finished })
      | some conn =>
          some ({ w with pool.conns :=
              w.pool.conns.set i (conn.tryAcquire now env.reconnect).1 }.update c
            { call with
              pc := if (conn.tryAcquire now env.reconnect).2 then .took i
                else .scanning (i + 1) now })
  | .took i =>
      some ({ w with pool.activeCount := w.pool.activeCount + 1 }.update c
        { call with pc := .counted i })
  | .counted i =>
      some ({ w with pool.idleCount := w.pool.idleCount - 1, lock := none }.update c
        { call with pc := .got i, obtained := call.obtained ++ [i] })
  | .got i =>
      some (w.update c { call with pc := if env.sendOk then .sent i else .marking i false })
  | .sent i =>
      some (w.update c { call with pc := .marking i (call.caller.accepts env.ret) })
  | .marking i success =>
      some ({ w with pool.conns := w.pool.conns.modify i fun conn => conn.mark success }.update c
        { call with pc := .releasing i })
  | .releasing i =>
      some ({ w with pool.conns := w.pool.conns.modify i fun conn => conn.release env.now }.update
        c { call with pc := .released i, givenBack := call.givenBack ++ [i] })
  | .released i =>
      some ({ w with pool.activeCount := w.pool.activeCount - 1 }.update c
        { call with pc := .uncounted i })
  | .uncounted _ =>
      some ({ w with pool.idleCount := w.pool.idleCount + 1 }.update c
        { call with pc := .finished })
  | .finished => none

/-- One step: another caller begins, or a caller goes on. -/
def World.next (w : World) : Label → Option World
  | .call caller =>
      some { w with calls := w.calls ++ [⟨caller, .begun, [], []⟩] }
  | .step c env =>
      match w.calls[c]? with
      | none => none
      | some call => w.advance c call env

/-- A pool before any call. -/
def World.start (pool : BackendPool) : World := ⟨pool, none, []⟩

/-! ## What the program points stand for -/

/-- The connection whose `in_use` flag the call has set and not yet cleared. -/
def Pc.holds : Pc → Option Nat
  | .took i => some i
  | .counted i => some i
  | .got i => some i
  | .sent i => some i
  | .marking i _ => some i
  | .releasing i => some i
  | _ => none

/-- The connection the call has obtained and not yet given back. -/
def Pc.owes : Pc → Option Nat
  | .got i => some i
  | .sent i => some i
  | .marking i _ => some i
  | .releasing i => some i
  | _ => none

/-- The call is counted in `active_count`. -/
def Pc.inActive : Pc → Bool
  | .counted _ => true
  | .got _ => true
  | .sent _ => true
  | .marking _ _ => true
  | .releasing _ => true
  | .released _ => true
  | _ => false

/-- The call is deducted from `idle_count`. -/
def Pc.offIdle : Pc → Bool
  | .got _ => true
  | .sent _ => true
  | .marking _ _ => true
  | .releasing _ => true
  | .released _ => true
  | .uncounted _ => true
  | _ => false

/-- The call is inside `backend_pool_acquire` or `backend_pool_release`. -/
def Pc.inProgress : Pc → Bool
  | .scanning _ _ => true
  | .took _ => true
  | .counted _ => true
  | .released _ => true
  | .uncounted _ => true
  | _ => false

/-! ## The account -/

/-- Flags, holders and counters agree, with the calls that are in the middle of an acquire or a
release taken into account. -/
structure Accounted (pool : BackendPool) (calls : List Call) : Prop where
  held : ∀ (c : Nat) (call : Call) (i : Nat), calls[c]? = some call → call.pc.holds = some i →
    ∃ conn, pool.conns[i]? = some conn ∧ conn.inUse = true
  exclusive : Exclusive (fun call : Call => call.pc.holds) calls
  in_use : pool.conns.countP (fun conn => conn.inUse) =
    calls.countP fun call => call.pc.holds.isSome
  active : pool.activeCount = calls.countP fun call => call.pc.inActive
  idle : pool.idleCount + calls.countP (fun call => call.pc.offIdle) = pool.conns.length

/-- The history of a call fits its program point. -/
def Call.Balanced (call : Call) : Prop :=
  match call.pc with
  | .got i => call.obtained = [i] ∧ call.givenBack = []
  | .sent i => call.obtained = [i] ∧ call.givenBack = []
  | .marking i _ => call.obtained = [i] ∧ call.givenBack = []
  | .releasing i => call.obtained = [i] ∧ call.givenBack = []
  | .released i => call.obtained = [i] ∧ call.givenBack = [i]
  | .uncounted i => call.obtained = [i] ∧ call.givenBack = [i]
  | .finished => call.givenBack = call.obtained ∧ call.obtained.length ≤ 1
  | _ => call.obtained = [] ∧ call.givenBack = []

variable {conns : List BackendConn} {pool : BackendPool} {calls : List Call} {c i : Nat}
  {call' : Call} {w w' : World}

/-- The flags determine the number of connections in use. -/
theorem count_in_use_congr {conns' : List BackendConn}
    (h : conns'.map BackendConn.inUse = conns.map BackendConn.inUse) :
    conns'.countP (fun conn => conn.inUse) = conns.countP fun conn => conn.inUse := by
  have hcount := congrArg (List.countP id) h
  rwa [List.countP_map, List.countP_map] at hcount

/-- Connections with the same flags are as many. -/
theorem length_of_flags {conns' : List BackendConn}
    (h : conns'.map BackendConn.inUse = conns.map BackendConn.inUse) :
    conns'.length = conns.length := by
  have hlength := congrArg List.length h
  rwa [List.length_map, List.length_map] at hlength

/-- The counters follow the program point of the call that moves. -/
theorem Accounted.counters {call : Call} (h : Accounted pool calls) (pool' : BackendPool)
    (hc : calls[c]? = some call) (hlength : pool'.conns.length = pool.conns.length)
    (hactive : pool'.activeCount + call.pc.inActive.toNat =
      pool.activeCount + call'.pc.inActive.toNat)
    (hidle : pool'.idleCount + call'.pc.offIdle.toNat =
      pool.idleCount + call.pc.offIdle.toNat) :
    (pool'.activeCount = (calls.set c call').countP fun call => call.pc.inActive) ∧
      pool'.idleCount + (calls.set c call').countP (fun call => call.pc.offIdle) =
        pool'.conns.length := by
  constructor
  · have hcount := count_set_add (fun call : Call => call.pc.inActive) hc call'
    have hbefore := h.active
    omega
  · have hcount := count_set_add (fun call : Call => call.pc.offIdle) hc call'
    have hbefore := h.idle
    omega

/-- A step that moves no connection: the flags are as before and the call holds what it held.
The counters follow the call's program point. -/
theorem Accounted.move {pool' : BackendPool} {call : Call} (h : Accounted pool calls)
    (hc : calls[c]? = some call)
    (hflags : pool'.conns.map BackendConn.inUse = pool.conns.map BackendConn.inUse)
    (hholds : call'.pc.holds = call.pc.holds)
    (hactive : pool'.activeCount + call.pc.inActive.toNat =
      pool.activeCount + call'.pc.inActive.toNat)
    (hidle : pool'.idleCount + call'.pc.offIdle.toNat =
      pool.idleCount + call.pc.offIdle.toNat) :
    Accounted pool' (calls.set c call') where
  held := by
    intro a thread i ha hi
    have hold : ∃ conn, pool.conns[i]? = some conn ∧ conn.inUse = true := by
      rcases get_set ha with ⟨rfl, rfl⟩ | ⟨-, ha⟩
      · exact h.held _ _ i hc (hholds ▸ hi)
      · exact h.held _ _ i ha hi
    obtain ⟨conn, hconn, huse⟩ := hold
    have hmap := congrArg (fun flags => flags[i]?) hflags
    simp only [List.getElem?_map, hconn, Option.map_some, huse] at hmap
    exact Option.map_eq_some_iff.mp hmap
  exclusive := h.exclusive.set hc fun resource hr => by rwa [hholds] at hr
  in_use := by
    have hcount := count_set_add (fun call : Call => call.pc.holds.isSome) hc call'
    rw [hholds] at hcount
    rw [count_in_use_congr hflags, h.in_use]
    omega
  active := (h.counters pool' hc (length_of_flags hflags) hactive hidle).1
  idle := (h.counters pool' hc (length_of_flags hflags) hactive hidle).2

/-- Taking a connection that was free. -/
theorem Accounted.take {call : Call} (h : Accounted pool calls) (hc : calls[c]? = some call)
    {conn conn' : BackendConn} (hconn : pool.conns[i]? = some conn) (hfree : conn.inUse = false)
    (hused : conn'.inUse = true) (hnone : call.pc.holds = none) (htaken : call'.pc.holds = some i)
    (hactive : call'.pc.inActive = call.pc.inActive) (hidle : call'.pc.offIdle = call.pc.offIdle) :
    Accounted { pool with conns := pool.conns.set i conn' } (calls.set c call') := by
  obtain ⟨hactive', hidle'⟩ := h.counters { pool with conns := pool.conns.set i conn' } hc
    List.length_set (by rw [hactive]) (by rw [hidle])
  refine ⟨?_, ?_, ?_, hactive', hidle'⟩
  · intro a thread j ha hj
    rcases get_set ha with ⟨rfl, rfl⟩ | ⟨-, ha⟩
    · obtain rfl : i = j := Option.some.inj (htaken.symm.trans hj)
      have hlt := (List.getElem?_eq_some_iff.mp hconn).1
      exact ⟨conn', List.getElem?_set_self hlt, hused⟩
    · obtain ⟨other, hother, huse⟩ := h.held _ _ j ha hj
      have hne : i ≠ j := by
        rintro rfl
        cases hother.symm.trans hconn
        rw [hfree] at huse
        cases huse
      exact ⟨other, by rwa [List.getElem?_set_ne hne], huse⟩
  · refine h.exclusive.take htaken fun a thread ha hi => ?_
    obtain ⟨other, hother, huse⟩ := h.held _ _ i ha hi
    cases hother.symm.trans hconn
    rw [hfree] at huse
    cases huse
  · have hcalls := count_set_add (fun call : Call => call.pc.holds.isSome) hc call'
    have hconns := count_set_add BackendConn.inUse hconn conn'
    have hbefore : pool.conns.countP BackendConn.inUse = _ := h.in_use
    simp only [hnone, htaken, hfree, hused, Option.isSome_none, Option.isSome_some,
      Bool.toNat_true, Bool.toNat_false] at hcalls hconns
    show (pool.conns.set i conn').countP BackendConn.inUse = _
    omega

/-- Clearing the flag of the connection the call holds. -/
theorem Accounted.give_up {call : Call} (h : Accounted pool calls) (hc : calls[c]? = some call)
    {update : BackendConn → BackendConn} (hupdate : ∀ conn, (update conn).inUse = false)
    (hheld : call.pc.holds = some i) (hnone : call'.pc.holds = none)
    (hactive : call'.pc.inActive = call.pc.inActive) (hidle : call'.pc.offIdle = call.pc.offIdle) :
    Accounted { pool with conns := pool.conns.modify i update } (calls.set c call') := by
  obtain ⟨conn, hconn, huse⟩ := h.held c call i hc hheld
  have hmodify : pool.conns.modify i update = pool.conns.set i (update conn) := by
    rw [List.modify_eq_set_getElem?, hconn]
    rfl
  rw [hmodify]
  obtain ⟨hactive', hidle'⟩ := h.counters { pool with conns := pool.conns.set i (update conn) }
    hc List.length_set (by rw [hactive]) (by rw [hidle])
  refine ⟨?_, ?_, ?_, hactive', hidle'⟩
  · intro a thread j ha hj
    rcases get_set ha with ⟨rfl, rfl⟩ | ⟨hne, ha⟩
    · cases hnone.symm.trans hj
    · obtain ⟨other, hother, huse'⟩ := h.held _ _ j ha hj
      have hij : i ≠ j := by
        rintro rfl
        exact hne (h.exclusive _ _ _ _ _ ha hc hj hheld)
      exact ⟨other, by rwa [List.getElem?_set_ne hij], huse'⟩
  · exact h.exclusive.set hc fun resource hr => by cases hnone.symm.trans hr
  · have hcalls := count_set_add (fun call : Call => call.pc.holds.isSome) hc call'
    have hconns := count_set_add BackendConn.inUse hconn (update conn)
    have hbefore : pool.conns.countP BackendConn.inUse = _ := h.in_use
    simp only [hnone, hheld, huse, hupdate, Option.isSome_none, Option.isSome_some,
      Bool.toNat_true, Bool.toNat_false] at hcalls hconns
    show (pool.conns.set i (update conn)).countP BackendConn.inUse = _
    omega

/-- A change that leaves a connection's flag as it is. -/
theorem map_in_use_set {conn conn' : BackendConn} (hconn : conns[i]? = some conn)
    (h : conn'.inUse = conn.inUse) :
    (conns.set i conn').map BackendConn.inUse = conns.map BackendConn.inUse := by
  obtain ⟨hlt, rfl⟩ := List.getElem?_eq_some_iff.mp hconn
  have hlt' : i < (conns.map BackendConn.inUse).length := by rwa [List.length_map]
  have hflag : conn'.inUse = (conns.map BackendConn.inUse)[i] := by
    rw [h, List.getElem_map]
  rw [List.map_set, hflag, List.set_getElem_self]

/-- An update that leaves the flag of a connection alone leaves all flags alone. -/
theorem map_in_use_modify {update : BackendConn → BackendConn}
    (h : ∀ conn, (update conn).inUse = conn.inUse) :
    (conns.modify i update).map BackendConn.inUse = conns.map BackendConn.inUse := by
  rw [List.modify_eq_set_getElem?]
  cases hconn : conns[i]? with
  | none => rfl
  | some conn => exact map_in_use_set hconn (h conn)

/-- Every step keeps the account. -/
theorem advance_accounted {call : Call} {env : Env} (h : Accounted w.pool w.calls)
    (hc : w.calls[c]? = some call) (hstep : w.advance c call env = some w') :
    Accounted w'.pool w'.calls := by
  obtain ⟨caller, pc, obtained, givenBack⟩ := call
  unfold World.advance at hstep
  cases pc with
  | begun =>
      cases hstep
      refine h.move hc rfl ?_ ?_ ?_
      all_goals
        simp only
        split <;> rfl
  | acquiring =>
      simp only at hstep
      split at hstep
      · cases hstep
        exact h.move hc rfl rfl rfl rfl
      · cases hstep
  | scanning i now =>
      simp only at hstep
      split at hstep
      · cases hstep
        exact h.move hc rfl rfl rfl rfl
      · rename_i conn hconn
        cases hstep
        cases htaken : (conn.tryAcquire now env.reconnect).2 with
        | false =>
            exact h.move hc (map_in_use_set hconn (try_acquire_passed htaken)) rfl rfl rfl
        | true =>
            obtain ⟨heligible, hused⟩ := try_acquire_taken htaken
            exact h.take hc hconn heligible.1 hused rfl rfl rfl rfl
  | took i =>
      cases hstep
      exact h.move hc rfl rfl (by simp [World.update, Pc.inActive]) rfl
  | counted i =>
      cases hstep
      exact h.move hc rfl rfl rfl (by simp [World.update, Pc.offIdle])
  | got i =>
      cases hstep
      refine h.move hc rfl ?_ ?_ ?_
      all_goals
        simp only
        split <;> rfl
  | sent i =>
      cases hstep
      exact h.move hc rfl rfl rfl rfl
  | marking i success =>
      cases hstep
      exact h.move hc (map_in_use_modify fun conn => mark_in_use conn success) rfl rfl rfl
  | releasing i =>
      cases hstep
      exact h.give_up hc (fun conn => release_in_use conn env.now) rfl rfl rfl rfl
  | released i =>
      cases hstep
      exact h.move hc rfl rfl (by simp [World.update, Pc.inActive]) rfl
  | uncounted i =>
      cases hstep
      exact h.move hc rfl rfl rfl (by simp [World.update, Pc.offIdle])
  | finished => cases hstep

/-- Every step of a call extends its history as its program point requires. -/
theorem advance_balanced {call : Call} {env : Env} (h : call.Balanced)
    (hstep : w.advance c call env = some w') :
    ∃ call', call'.Balanced ∧ w'.calls = w.calls.set c call' := by
  obtain ⟨caller, pc, obtained, givenBack⟩ := call
  unfold World.advance at hstep
  cases pc with
  | begun =>
      obtain ⟨rfl, rfl⟩ : obtained = [] ∧ givenBack = [] := h
      cases hstep
      refine ⟨_, ?_, rfl⟩
      split
      · exact ⟨rfl, Nat.zero_le _⟩
      · exact ⟨rfl, rfl⟩
  | acquiring =>
      simp only at hstep
      split at hstep
      · cases hstep
        refine ⟨_, ?_, rfl⟩
        exact h
      · cases hstep
  | scanning i now =>
      obtain ⟨rfl, rfl⟩ : obtained = [] ∧ givenBack = [] := h
      simp only at hstep
      split at hstep
      · cases hstep
        exact ⟨⟨caller, .finished, [], []⟩, ⟨rfl, Nat.zero_le _⟩, rfl⟩
      · cases hstep
        refine ⟨_, ?_, rfl⟩
        split <;> exact ⟨rfl, rfl⟩
  | took i =>
      cases hstep
      refine ⟨_, ?_, rfl⟩
      exact h
  | counted i =>
      obtain ⟨rfl, rfl⟩ : obtained = [] ∧ givenBack = [] := h
      cases hstep
      exact ⟨⟨caller, .got i, [i], []⟩, ⟨rfl, rfl⟩, rfl⟩
  | got i =>
      cases hstep
      refine ⟨_, ?_, rfl⟩
      split <;> exact h
  | sent i =>
      cases hstep
      refine ⟨_, ?_, rfl⟩
      exact h
  | marking i success =>
      cases hstep
      refine ⟨_, ?_, rfl⟩
      exact h
  | releasing i =>
      obtain ⟨rfl, rfl⟩ : obtained = [i] ∧ givenBack = [] := h
      cases hstep
      exact ⟨⟨caller, .released i, [i], [i]⟩, ⟨rfl, rfl⟩, rfl⟩
  | released i =>
      cases hstep
      refine ⟨_, ?_, rfl⟩
      exact h
  | uncounted i =>
      obtain ⟨rfl, rfl⟩ : obtained = [i] ∧ givenBack = [i] := h
      cases hstep
      exact ⟨⟨caller, .finished, [i], [i]⟩, ⟨rfl, Nat.le_refl _⟩, rfl⟩
  | finished => cases hstep

/-- A step either creates a call or moves one. -/
theorem next_eq_some {label : Label} (h : w.next label = some w') :
    (∃ caller, w' = { w with calls := w.calls ++ [⟨caller, .begun, [], []⟩] }) ∨
      ∃ c call env, w.calls[c]? = some call ∧ w.advance c call env = some w' := by
  cases label with
  | call caller =>
      cases h
      exact Or.inl ⟨caller, rfl⟩
  | step c env =>
      rw [World.next] at h
      split at h
      · cases h
      · rename_i call hc
        exact Or.inr ⟨c, call, env, hc, h⟩

/-- A caller that begins is in no account yet. -/
theorem Accounted.call {pool : BackendPool} {calls : List Call} (h : Accounted pool calls)
    (caller : Caller) : Accounted pool (calls ++ [⟨caller, .begun, [], []⟩]) where
  held := by
    intro c call i hc hi
    rcases get_concat hc with ⟨rfl, rfl⟩ | hc
    · cases hi
    · exact h.held c call i hc hi
  exclusive := h.exclusive.concat rfl
  in_use := by
    rw [List.countP_append, h.in_use]
    rfl
  active := by
    rw [List.countP_append, h.active]
    rfl
  idle := by
    rw [List.countP_append]
    exact h.idle

/-- A fresh pool: nothing is held, and every connection is counted as idle. -/
theorem create_accounted {poolSize : Int} {clock : Nat → Int} {succeeds : Nat → Bool}
    (h : backendPoolCreate poolSize clock succeeds = some pool) : Accounted pool [] := by
  unfold backendPoolCreate at h
  split at h
  · cases h
  · cases h
    refine ⟨?_, Exclusive.nil, ?_, rfl, rfl⟩
    · intro c call i hc
      cases hc
    · rw [List.countP_map]
      exact List.countP_eq_zero.mpr fun i _ => Bool.false_ne_true

/-- The account holds, and every history is balanced. -/
def World.InBooks (w : World) : Prop :=
  Accounted w.pool w.calls ∧ ∀ call ∈ w.calls, call.Balanced

/-- Every step keeps the books. -/
theorem next_in_books {label : Label} (h : w.InBooks) (hnext : w.next label = some w') :
    w'.InBooks := by
  obtain ⟨haccount, hbalanced⟩ := h
  rcases next_eq_some hnext with ⟨caller, rfl⟩ | ⟨c, call, env, hc, hadvance⟩
  · refine ⟨haccount.call caller, fun call hcall => ?_⟩
    rcases List.mem_append.mp hcall with hcall | hcall
    · exact hbalanced call hcall
    · rw [List.mem_singleton.mp hcall]
      exact ⟨rfl, rfl⟩
  · refine ⟨advance_accounted haccount hc hadvance, fun other hother => ?_⟩
    obtain ⟨call', hcall', hcalls⟩ :=
      advance_balanced (hbalanced call (List.mem_of_getElem? hc)) hadvance
    rw [hcalls] at hother
    rcases List.mem_or_eq_of_mem_set hother with hother | rfl
    · exact hbalanced other hother
    · exact hcall'

/-- Every state that a run over a fresh pool reaches is in the books. -/
theorem run_in_books {poolSize : Int} {clock : Nat → Int} {succeeds : Nat → Bool}
    (hcreate : backendPoolCreate poolSize clock succeeds = some pool) {labels : List Label}
    (hrun : run World.next (World.start pool) labels = some w) : w.InBooks := by
  have hstart : (World.start pool).InBooks :=
    ⟨create_accounted hcreate, fun call hcall => absurd hcall List.not_mem_nil⟩
  exact run_preserves (fun _ _ _ => next_in_books) hstart hrun

/-! ## The way to the release -/

/-- What a call owes is what it has obtained. -/
theorem Call.Balanced.of_owes {call : Call} (h : call.Balanced) (howes : call.pc.owes = some i) :
    call.obtained = [i] ∧ call.givenBack = [] := by
  obtain ⟨caller, pc, obtained, givenBack⟩ := call
  cases pc <;> simp_all [Pc.owes, Call.Balanced]

/-- The first `k` steps of call `c` alone, with the surroundings of each of them. -/
def ownSteps (c : Nat) (env : Nat → Env) (k : Nat) : List Label :=
  (List.range k).map fun j => .step c (env j)

/-- How many steps a call makes at most until it has given its connection back. -/
def Pc.stepsToRelease : Pc → Nat
  | .got _ => 4
  | .sent _ => 3
  | .marking _ _ => 2
  | .releasing _ => 1
  | _ => 0

/-- No caller is more than four steps from its release. -/
theorem steps_to_release_le (pc : Pc) : pc.stepsToRelease ≤ 4 := by
  cases pc <;> simp [Pc.stepsToRelease]

/-- A caller that owes a connection has a step to take before it has given it back. -/
theorem steps_to_release_pos {pc : Pc} (h : pc.owes = some i) : 0 < pc.stepsToRelease := by
  cases pc <;> simp_all [Pc.stepsToRelease, Pc.owes]

/-- A call that owes a connection is never blocked: its next step gives the connection back, or
brings it nearer to the release with the same history. -/
theorem owing_step {call : Call} (hc : w.calls[c]? = some call) (howes : call.pc.owes = some i)
    (env : Env) :
    ∃ w' call', w.next (.step c env) = some w' ∧ w'.calls[c]? = some call' ∧
      call'.obtained = call.obtained ∧
      ((call'.pc.owes = some i ∧ call'.givenBack = call.givenBack ∧
          call'.pc.stepsToRelease < call.pc.stepsToRelease) ∨
        call'.givenBack = call.givenBack ++ [i]) := by
  have hlt := (List.getElem?_eq_some_iff.mp hc).1
  obtain ⟨caller, pc, obtained, givenBack⟩ := call
  have hnext : w.next (.step c env) = w.advance c ⟨caller, pc, obtained, givenBack⟩ env := by
    rw [World.next, hc]
  rw [hnext]
  cases pc with
  | got j =>
      refine ⟨_, _, rfl, List.getElem?_set_self hlt, rfl, Or.inl ⟨?_, rfl, ?_⟩⟩
      · show (if env.sendOk then Pc.sent j else .marking j false).owes = some i
        split <;> exact howes
      · show (if env.sendOk then Pc.sent j else .marking j false).stepsToRelease < 4
        split
        · exact Nat.lt_succ_self 3
        · exact Nat.lt_add_of_pos_right Nat.two_pos
  | sent j =>
      refine ⟨_, _, rfl, List.getElem?_set_self hlt, rfl, Or.inl ⟨howes, rfl, ?_⟩⟩
      exact Nat.lt_succ_self 2
  | marking j success =>
      refine ⟨_, _, rfl, List.getElem?_set_self hlt, rfl, Or.inl ⟨howes, rfl, ?_⟩⟩
      exact Nat.lt_succ_self 1
  | releasing j =>
      obtain rfl : j = i := Option.some.inj howes
      exact ⟨_, _, rfl, List.getElem?_set_self hlt, rfl, Or.inr rfl⟩
  | _ => cases howes

/-- On every path of its own steps, a call that owes a connection gives it back. -/
theorem owing_call_gives_back {call : Call} (hc : w.calls[c]? = some call)
    (howes : call.pc.owes = some i) (env : Nat → Env) :
    ∃ k ≤ call.pc.stepsToRelease, ∃ w' call',
      run World.next w (ownSteps c env k) = some w' ∧
        w'.calls[c]? = some call' ∧ call'.obtained = call.obtained ∧
        call'.givenBack = call.givenBack ++ [i] := by
  induction hrank : call.pc.stepsToRelease using Nat.strongRecOn generalizing w call env with
  | ind rank ih =>
      subst hrank
      obtain ⟨w', call', hnext, hc', hobtained, hcases⟩ := owing_step hc howes (env 0)
      rcases hcases with ⟨howes', hgiven, hlt⟩ | hgiven
      · obtain ⟨k, hk, w'', call'', hrun, hc'', hobtained', hgiven'⟩ :=
          ih _ hlt hc' howes' (fun j => env (j + 1)) rfl
        refine ⟨k + 1, by omega, w'', call'', ?_, hc'', hobtained'.trans hobtained, ?_⟩
        · rw [ownSteps, List.range_succ_eq_map, List.map_cons, List.map_map, run_cons_eq_some]
          exact ⟨w', hnext, hrun⟩
        · rw [hgiven', hgiven]
      · refine ⟨1, steps_to_release_pos howes, w', call', ?_, hc', hobtained, hgiven⟩
        exact run_cons_eq_some.mpr ⟨w', hnext, rfl⟩

/-! ## The result -/

/-- Nobody is inside `backend_pool_acquire` or `backend_pool_release`. -/
def World.Quiet (w : World) : Prop := ∀ call ∈ w.calls, call.pc.inProgress = false

/-- Outside acquire and release, the calls in `active_count` are those that hold a connection,
and they are the ones that `idle_count` lacks. -/
theorem quiet_phases {pc : Pc} (h : pc.inProgress = false) :
    pc.inActive = pc.holds.isSome ∧ pc.offIdle = pc.holds.isSome := by
  cases pc <;> simp_all [Pc.inProgress, Pc.inActive, Pc.offIdle, Pc.holds]

/-- **The pool's books.** In every state that any interleaving of proxy calls and health checks
reaches: no connection is held by two calls; a call gives back what it obtained within four steps of
its own, and when it has finished exactly that, at most one connection; and when nobody is inside
acquire or release, `active_count` is the number of connections held and `active_count + idle_count`
the size. -/
theorem pool_accounts {poolSize : Int} {clock : Nat → Int} {succeeds : Nat → Bool}
    {pool : BackendPool} (hcreate : backendPoolCreate poolSize clock succeeds = some pool)
    {labels : List Label} {w : World} (hrun : run World.next (World.start pool) labels = some w) :
    Exclusive (fun call : Call => call.pc.holds) w.calls ∧
      (∀ (c : Nat) (call : Call) (i : Nat), w.calls[c]? = some call → call.pc.owes = some i →
        ∀ env : Nat → Env, ∃ k ≤ 4, ∃ w' call',
          run World.next w (ownSteps c env k) = some w' ∧
            w'.calls[c]? = some call' ∧ call'.obtained = [i] ∧ call'.givenBack = [i]) ∧
      (∀ call ∈ w.calls, call.pc = .finished →
        call.givenBack = call.obtained ∧ call.obtained.length ≤ 1) ∧
      (w.Quiet →
        w.pool.activeCount = w.pool.conns.countP (fun conn => conn.inUse) ∧
          w.pool.activeCount = w.calls.countP (fun call => call.pc.holds.isSome) ∧
          w.pool.activeCount + w.pool.idleCount = w.pool.conns.length) := by
  obtain ⟨haccount, hbalanced⟩ := run_in_books hcreate hrun
  refine ⟨haccount.exclusive, ?_, ?_, ?_⟩
  · intro c call i hc howes env
    obtain ⟨k, hk, w', call', hown, hc', hobtained, hgiven⟩ := owing_call_gives_back hc howes env
    have hcall := hbalanced call (List.mem_of_getElem? hc)
    have hhistory := hcall.of_owes howes
    refine ⟨k, hk.trans (steps_to_release_le _), w', call', hown, hc',
      hobtained.trans hhistory.1, ?_⟩
    rw [hgiven, hhistory.2, List.nil_append]
  · intro call hcall hfinished
    have hbalance := hbalanced call hcall
    rw [Call.Balanced, hfinished] at hbalance
    exact hbalance
  · intro hquiet
    have hactive : w.calls.countP (fun call => call.pc.inActive) =
        w.calls.countP fun call => call.pc.holds.isSome :=
      List.countP_congr fun call hcall => by rw [(quiet_phases (hquiet call hcall)).1]
    have hidle : w.calls.countP (fun call => call.pc.offIdle) =
        w.calls.countP fun call => call.pc.holds.isSome :=
      List.countP_congr fun call hcall => by rw [(quiet_phases (hquiet call hcall)).2]
    have hcount := haccount.active
    have hrest := haccount.idle
    have huse := haccount.in_use
    rw [hactive] at hcount
    rw [hidle] at hrest
    refine ⟨?_, hcount, ?_⟩
    · rw [huse]
      exact hcount
    · omega

/-- Everything works, at time 0. -/
def smoothEnv : Env := ⟨0, true, ⟨true, true⟩, true, 200⟩

/-- A proxy call and a health check over a pool of two connections: the proxy call has finished
while the health check is still waiting for its answer. -/
def overlappingCalls : List Label :=
  [.call .proxy, .call .healthCheck] ++ ownSteps 0 (fun _ => smoothEnv) 5 ++
    ownSteps 1 (fun _ => smoothEnv) 7 ++ ownSteps 0 (fun _ => smoothEnv) 6

/-- Where `overlappingCalls` leads. -/
def overlappingWorld : World where
  pool :=
    ⟨[{ createBackendConnection 0 with consecutiveSuccesses := 1 },
      { createBackendConnection 0 with inUse := true }], 1, 1⟩
  lock := none
  calls := [⟨.proxy, .finished, [0], [0]⟩, ⟨.healthCheck, .sent 1, [1], []⟩]

/-- A proxied request has finished while a health check waits for its answer: one connection of two
is active. -/
theorem overlapping_calls_accounted :
    ∃ pool, backendPoolCreate 2 (fun _ => 0) (fun _ => true) = some pool ∧
      run World.next (World.start pool) overlappingCalls = some overlappingWorld ∧
      overlappingWorld.pool.activeCount = 1 ∧
      overlappingWorld.pool.activeCount + overlappingWorld.pool.idleCount = 2 := by
  have hcreate : backendPoolCreate 2 (fun _ => 0) (fun _ => true) =
      some ⟨[createBackendConnection 0, createBackendConnection 0], 0, 2⟩ := rfl
  have hrun : run World.next (World.start
      ⟨[createBackendConnection 0, createBackendConnection 0], 0, 2⟩) overlappingCalls =
        some overlappingWorld := by decide +kernel
  have hquiet : overlappingWorld.Quiet := by
    unfold World.Quiet
    decide
  exact ⟨_, hcreate, hrun, rfl, ((pool_accounts hcreate hrun).2.2.2 hquiet).2.2⟩

end Emme.Backend
