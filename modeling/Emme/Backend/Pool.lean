import Emme.Http2.Client

/-!
# The backend connection pool

The connections of a pool and the sections that run under a connection's lock: the body of the loop
of `backend_pool_acquire`, the first half of `backend_pool_release`, and the two functions that
record the outcome of a request.
-/

namespace Emme.Backend

open Emme.Http2

/-- `BACKEND_POOL_MAX_SIZE`. -/
def maxPoolSize : Int := 20

/-- `BACKEND_POOL_IDLE_TIMEOUT_SEC`. -/
def idleTimeoutSec : Int := 60

/-- `backend_health_t`. -/
inductive Health where
  | unknown
  | healthy
  | unhealthy
  deriving DecidableEq, Repr

/-- `backend_conn_t`. -/
structure BackendConn where
  client : Http2Client
  inUse : Bool
  lastUsed : Int
  health : Health
  consecutiveFailures : Nat
  consecutiveSuccesses : Nat
  deriving DecidableEq, Repr

/-- The connections of a pool and its two counters; `size` is the number of connections. -/
structure BackendPool where
  conns : List BackendConn
  activeCount : Int
  idleCount : Int
  deriving DecidableEq, Repr

/-- `create_backend_connection` at some time; the client is initialised but not connected. -/
def createBackendConnection (now : Int) : BackendConn where
  client := http2ClientInit
  inUse := false
  lastUsed := now
  health := .unknown
  consecutiveFailures := 0
  consecutiveSuccesses := 0

/-- `backend_pool_create`, where `clock i` is the time at which the `i`-th connection is created
and `succeeds i` says whether that succeeds; the loop stops at the first failure. -/
def backendPoolCreate (poolSize : Int) (clock : Nat → Int) (succeeds : Nat → Bool) :
    Option BackendPool :=
  if poolSize ≤ 0 ∨ maxPoolSize < poolSize then none
  else
    let conns := ((List.range poolSize.toNat).takeWhile succeeds).map fun i =>
      createBackendConnection (clock i)
    some { conns, activeCount := 0, idleCount := conns.length }

/-- The outcomes of `http2_client_init` and `http2_client_connect` in a reconnection. -/
structure Reconnect where
  initOk : Bool
  connectOk : Bool
  deriving DecidableEq, Repr

/-- The connection is free and not marked unhealthy. -/
def BackendConn.Eligible (conn : BackendConn) : Prop :=
  conn.inUse = false ∧ conn.health ≠ .unhealthy

instance (conn : BackendConn) : Decidable conn.Eligible := inferInstanceAs (Decidable (_ ∧ _))

/-- The body of the loop of `backend_pool_acquire`, under the connection's lock: the connection
afterwards, and whether it was taken. The time is the one read when the call started. -/
def BackendConn.tryAcquire (conn : BackendConn) (now : Int) (reconnect : Reconnect) :
    BackendConn × Bool :=
  if conn.Eligible then
    if idleTimeoutSec < now - conn.lastUsed then
      -- cleanup and init leave a client without a session; connect gives it one
      if reconnect.initOk && reconnect.connectOk then
        ({ conn with
            client := http2ClientConnect http2ClientInit, lastUsed := now, inUse := true }, true)
      else ({ conn with client := http2ClientInit, health := .unhealthy }, false)
    else ({ conn with inUse := true }, true)
  else (conn, false)

/-- `backend_pool_release` up to its counters. -/
def BackendConn.release (conn : BackendConn) (now : Int) : BackendConn :=
  { conn with inUse := false, lastUsed := now }

/-- `backend_pool_mark_success`: the second success in a row makes the connection healthy. -/
def backendPoolMarkSuccess (conn : BackendConn) : BackendConn :=
  let successes := conn.consecutiveSuccesses + 1
  { conn with
    consecutiveFailures := 0
    consecutiveSuccesses := successes
    health := if 2 ≤ successes ∧ conn.health ≠ .healthy then .healthy else conn.health }

/-- `backend_pool_mark_failure`: the third failure in a row makes the connection unhealthy. -/
def backendPoolMarkFailure (conn : BackendConn) : BackendConn :=
  let failures := conn.consecutiveFailures + 1
  { conn with
    consecutiveSuccesses := 0
    consecutiveFailures := failures
    health := if 3 ≤ failures then .unhealthy else conn.health }

/-- Record the outcome of a request. -/
def BackendConn.mark (conn : BackendConn) (success : Bool) : BackendConn :=
  if success then backendPoolMarkSuccess conn else backendPoolMarkFailure conn

/-- A mark leaves the flag alone. -/
@[simp]
theorem mark_in_use (conn : BackendConn) (success : Bool) :
    (conn.mark success).inUse = conn.inUse := by
  cases success <;> rfl

/-- A connection that is released is not in use. -/
@[simp]
theorem release_in_use (conn : BackendConn) (now : Int) : (conn.release now).inUse = false := rfl

/-- What the loop body can do: pass over a connection that is not eligible; reconnect one that
has been idle for too long, with success or not; take any other. -/
theorem try_acquire_cases (conn : BackendConn) (now : Int) (reconnect : Reconnect) :
    (¬ conn.Eligible ∧ conn.tryAcquire now reconnect = (conn, false)) ∨
      (conn.Eligible ∧ idleTimeoutSec < now - conn.lastUsed ∧
        (reconnect.initOk && reconnect.connectOk) = true ∧
        conn.tryAcquire now reconnect =
          ({ conn with
              client := http2ClientConnect http2ClientInit, lastUsed := now, inUse := true },
            true)) ∨
      (conn.Eligible ∧ idleTimeoutSec < now - conn.lastUsed ∧
        (reconnect.initOk && reconnect.connectOk) = false ∧
        conn.tryAcquire now reconnect =
          ({ conn with client := http2ClientInit, health := .unhealthy }, false)) ∨
      (conn.Eligible ∧ ¬ idleTimeoutSec < now - conn.lastUsed ∧
        conn.tryAcquire now reconnect = ({ conn with inUse := true }, true)) := by
  unfold BackendConn.tryAcquire
  by_cases heligible : conn.Eligible
  · rw [if_pos heligible]
    by_cases hexpired : idleTimeoutSec < now - conn.lastUsed
    · rw [if_pos hexpired]
      cases hok : (reconnect.initOk && reconnect.connectOk) with
      | false => exact Or.inr (Or.inr (Or.inl ⟨heligible, hexpired, rfl, rfl⟩))
      | true => exact Or.inr (Or.inl ⟨heligible, hexpired, rfl, rfl⟩)
    · rw [if_neg hexpired]
      exact Or.inr (Or.inr (Or.inr ⟨heligible, hexpired, rfl⟩))
  · rw [if_neg heligible]
    exact Or.inl ⟨heligible, rfl⟩

/-- A connection is taken only when it was free, and is in use from then on. -/
theorem try_acquire_taken {conn : BackendConn} {now : Int} {reconnect : Reconnect}
    (h : (conn.tryAcquire now reconnect).2 = true) :
    conn.Eligible ∧ (conn.tryAcquire now reconnect).1.inUse = true := by
  rcases try_acquire_cases conn now reconnect with
    ⟨_, heq⟩ | ⟨heligible, _, _, heq⟩ | ⟨_, _, _, heq⟩ | ⟨heligible, _, heq⟩
  · rw [heq] at h
    cases h
  · exact ⟨heligible, by rw [heq]⟩
  · rw [heq] at h
    cases h
  · exact ⟨heligible, by rw [heq]⟩

/-- A connection that is passed over keeps its flag. -/
theorem try_acquire_passed {conn : BackendConn} {now : Int} {reconnect : Reconnect}
    (h : (conn.tryAcquire now reconnect).2 = false) :
    (conn.tryAcquire now reconnect).1.inUse = conn.inUse := by
  rcases try_acquire_cases conn now reconnect with
    ⟨_, heq⟩ | ⟨_, _, _, heq⟩ | ⟨_, _, _, heq⟩ | ⟨_, _, heq⟩
  · rw [heq]
  · rw [heq] at h
    cases h
  · rw [heq]
  · rw [heq] at h
    cases h

end Emme.Backend
