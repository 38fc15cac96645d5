import Emme.IpLimiter.Limiter
import Emme.Lib.Resources

/-!
# What the server acquires at its start

`initialize_server` sets up the ring, the listening socket, the limiter with its locks, the TLS
context and the thread pool. `server_log_clean_iff` says which starts give back everything once: all
but those that fail behind the limiter, whose locks nobody destroys.
-/

namespace Emme.Server

open Resources Emme.IpLimiter

/-! ## The start and the end of the server -/

/-- What the server obtains when it starts. -/
inductive ServerResource where
  | ring
  | socket
  /-- The mutex of a shard of the limiter. -/
  | lock (shard : Nat)
  | context
  | pool
  deriving DecidableEq, Repr

/-- What the server does to its resources, in order. -/
abbrev ServerLog := List (Event ServerResource)

/-- What the calls of `initialize_server` answer, and the limit of the configuration. -/
structure StartupIo where
  ring : Bool
  socket : Bool
  reuse : Bool
  bind : Bool
  listen : Bool
  limit : UInt32
  mutex : Nat → Bool
  contextNew : Bool
  alpnProtos : Bool
  certificate : Bool
  privateKey : Bool
  sessionId : Bool
  pool : Bool

/-- The mutexes of the first shards are destroyed. -/
def destroyLocks (count : Nat) : ServerLog :=
  (List.range count).map fun shard => .release (.lock shard)

/-- The loop of `ip_limiter_init` over the shards, from one on and with so many left. -/
def initLocks (mutex : Nat → Bool) (shard : Nat) : Nat → ServerLog × Bool
  | 0 => ([], true)
  | left + 1 =>
      if mutex shard then
        let rest := initLocks mutex (shard + 1) left
        (.acquire (.lock shard) :: rest.1, rest.2)
      else (destroyLocks shard, false)

/-- `ip_limiter_init`. -/
def ipLimiterInitLog (io : StartupIo) : ServerLog × Bool :=
  if io.limit = 0 ∨ ipLimiterMaxConnectionsPerIp < io.limit then ([], false)
  else initLocks io.mutex 0 ipLimiterShards

/-- `create_ssl_context`; a call that fails frees the context. -/
def createSslContextLog (io : StartupIo) : ServerLog × Bool :=
  if io.contextNew then
    if io.alpnProtos && io.certificate && io.privateKey && io.sessionId then
      ([.acquire .context, .use .context], true)
    else ([.acquire .context, .use .context, .release .context], false)
  else ([], false)

/-- The error exits behind the socket. -/
def closeSocket : ServerLog := [.release .socket, .release .ring]

/-- `cleanup_ssl_context`, which logs the statistics first. -/
def freeContext : ServerLog := [.use .context, .release .context]

/-- `initialize_server`. -/
def initializeServerLog (io : StartupIo) : ServerLog × Bool :=
  if !io.ring then ([], false)
  else if !io.socket then ([.acquire .ring, .release .ring], false)
  else
    let opened : ServerLog := [.acquire .ring, .acquire .socket]
    if !(io.reuse && io.bind && io.listen) then (opened ++ closeSocket, false)
    else
      let limiter := ipLimiterInitLog io
      if !limiter.2 then (opened ++ limiter.1 ++ closeSocket, false)
      else
        let context := createSslContextLog io
        if !context.2 then (opened ++ limiter.1 ++ context.1 ++ closeSocket, false)
        else if !io.pool then
          (opened ++ limiter.1 ++ context.1 ++ closeSocket ++ freeContext, false)
        else (opened ++ limiter.1 ++ context.1 ++ [.acquire .pool], true)

/-- `cleanup_server_resources`; `thread_pool_destroy` waits for the workers. -/
def cleanupServerResourcesLog : ServerLog :=
  .release .pool :: closeSocket ++ freeContext ++ destroyLocks ipLimiterShards

/-- `start_server`, where `served` is what the accept loop and the tasks use. -/
def startServerLog (io : StartupIo) (served : List ServerResource) : ServerLog :=
  let started := initializeServerLog io
  if started.2 then started.1 ++ uses served ++ cleanupServerResourcesLog else started.1

/-- The limiter has been initialised. -/
def LimiterStarts (io : StartupIo) : Prop :=
  io.ring = true ∧ io.socket = true ∧ (io.reuse && io.bind && io.listen) = true ∧
    (ipLimiterInitLog io).2 = true

instance (io : StartupIo) : Decidable (LimiterStarts io) := inferInstanceAs (Decidable (_ ∧ _))

/-! ## The locks -/

/-- The mutexes of the first shards are initialised. -/
def acquireLocks (count : Nat) : ServerLog :=
  (List.range count).map fun shard => .acquire (.lock shard)

/-- The loop initialises all mutexes, or destroys those that it has initialised. -/
theorem init_locks_cases (mutex : Nat → Bool) (shard left : Nat) :
    ((initLocks mutex shard left).2 = true ∧
        acquireLocks shard ++ (initLocks mutex shard left).1 = acquireLocks (shard + left)) ∨
      (initLocks mutex shard left).2 = false ∧
        ∃ count, acquireLocks shard ++ (initLocks mutex shard left).1 =
          acquireLocks count ++ destroyLocks count := by
  induction left generalizing shard with
  | zero => exact Or.inl ⟨rfl, List.append_nil _⟩
  | succ left ih =>
      have hsucc : acquireLocks (shard + 1) = acquireLocks shard ++ [.acquire (.lock shard)] := by
        rw [acquireLocks, List.range_succ, List.map_append, List.map_singleton, acquireLocks]
      rw [initLocks]
      split
      · have hcount : shard + (left + 1) = shard + 1 + left := by omega
        dsimp only
        rw [List.append_cons, ← hsucc, hcount]
        exact ih (shard + 1)
      · exact Or.inr ⟨rfl, shard, rfl⟩

/-- `ip_limiter_init` initialises all mutexes, or destroys those that it has initialised. -/
theorem ip_limiter_init_cases (io : StartupIo) :
    ((ipLimiterInitLog io).2 = true ∧ (ipLimiterInitLog io).1 = acquireLocks ipLimiterShards) ∨
      (ipLimiterInitLog io).2 = false ∧
        ∃ count, (ipLimiterInitLog io).1 = acquireLocks count ++ destroyLocks count := by
  rw [ipLimiterInitLog]
  split
  · exact Or.inr ⟨rfl, 0, rfl⟩
  · rcases init_locks_cases io.mutex 0 ipLimiterShards with ⟨hok, hlog⟩ | ⟨hok, count, hlog⟩
    · exact Or.inl ⟨hok, hlog.trans (by rw [Nat.zero_add])⟩
    · exact Or.inr ⟨hok, count, hlog⟩

/-- Initialising mutexes releases nothing. -/
theorem release_not_mem_acquire_locks (resource : ServerResource) (count : Nat) :
    Event.release resource ∉ acquireLocks count := by
  simp [acquireLocks]

/-- Destroying mutexes acquires nothing. -/
theorem acquire_not_mem_destroy_locks (resource : ServerResource) (count : Nat) :
    Event.acquire resource ∉ destroyLocks count := by
  simp [destroyLocks]

/-- What is acquired are the mutexes of the first shards. -/
theorem mem_acquire_locks {resource : ServerResource} {count : Nat} :
    Event.acquire resource ∈ acquireLocks count ↔ ∃ shard < count, resource = .lock shard := by
  simp [acquireLocks, eq_comm]

/-- Each mutex is destroyed once. -/
theorem count_release_lock {shard count : Nat} (h : shard < count) :
    (destroyLocks count).count (.release (.lock shard)) = 1 := by
  have hinjective : Function.Injective fun shard : Nat =>
      (Event.release (.lock shard) : Event ServerResource) := by
    intro left right heq
    cases heq
    rfl
  rw [destroyLocks, List.count_map_of_injective _ _ hinjective]
  exact List.count_eq_one_of_mem List.nodup_range (List.mem_range.mpr h)

/-- Nothing but mutexes is released. -/
theorem count_release_other {resource : ServerResource} (count : Nat)
    (h : ∀ shard, resource ≠ .lock shard) :
    (destroyLocks count).count (.release resource) = 0 := by
  refine List.count_eq_zero_of_not_mem fun hmem => ?_
  obtain ⟨shard, -, heq⟩ := List.mem_map.mp hmem
  cases heq
  exact h shard rfl

/-- Destroying mutexes uses nothing. -/
theorem destroy_locks_never_used (count : Nat) : NeverUsedAfter (destroyLocks count) := by
  rw [destroyLocks]
  induction List.range count with
  | nil => trivial
  | cons shard shards ih => exact ⟨by simp, ih⟩

/-! ## The exits -/

/-- An exit of `initialize_server` at the limiter: all that was set up is given back. -/
theorem failed_limiter_clean (count : Nat) :
    Clean ([.acquire .ring, .acquire .socket] ++ (acquireLocks count ++ destroyLocks count) ++
      closeSocket) := by
  rw [← List.append_assoc, List.append_assoc]
  refine clean_of_held ?_ ?_ ?_ ?_
  · intro resource hmem
    rcases List.mem_append.mp hmem with hmem | hmem
    · simp at hmem
    · exact release_not_mem_acquire_locks resource count hmem
  · intro resource hmem
    rcases List.mem_append.mp hmem with hmem | hmem
    · exact acquire_not_mem_destroy_locks resource count hmem
    · simp [closeSocket] at hmem
  · intro resource hmem
    rw [List.count_append]
    rcases List.mem_append.mp hmem with hmem | hmem
    · have hcases : resource = .ring ∨ resource = .socket := by simpa using hmem
      rcases hcases with rfl | rfl
      · rw [count_release_other count (by simp)]
        rfl
      · rw [count_release_other count (by simp)]
        rfl
    · obtain ⟨shard, hshard, rfl⟩ := mem_acquire_locks.mp hmem
      rw [count_release_lock hshard]
      rfl
  · refine never_used_after_append.mpr ⟨destroy_locks_never_used count, ?_, ?_⟩
    · simp [closeSocket, NeverUsedAfter]
    · simp [closeSocket]

/-- A server that has run gives everything back. -/
theorem served_clean (served : List ServerResource) :
    Clean (([.acquire .ring, .acquire .socket] ++ acquireLocks ipLimiterShards ++
      [.acquire .context, .use .context] ++ [.acquire .pool]) ++ uses served ++
        cleanupServerResourcesLog) := by
  refine clean_of_held ?_ ?_ ?_ ?_
  · intro resource hmem
    simp only [List.mem_append] at hmem
    rcases hmem with (((hmem | hmem) | hmem) | hmem) | hmem
    · simp at hmem
    · exact release_not_mem_acquire_locks resource _ hmem
    · simp at hmem
    · simp at hmem
    · exact release_not_mem_uses resource served hmem
  · intro resource hmem
    rcases List.mem_append.mp hmem with hmem | hmem
    · simp [closeSocket, freeContext] at hmem
    · exact acquire_not_mem_destroy_locks resource _ hmem
  · intro resource hmem
    rw [cleanupServerResourcesLog, List.count_append]
    simp only [List.mem_append, mem_acquire_locks] at hmem
    have hkind : (∃ shard < ipLimiterShards, resource = .lock shard) ∨ resource = .ring ∨
        resource = .socket ∨ resource = .context ∨ resource = .pool := by
      rcases hmem with (((hmem | hmem) | hmem) | hmem) | hmem
      · have hcases : resource = .ring ∨ resource = .socket := by simpa using hmem
        rcases hcases with rfl | rfl <;> simp
      · exact Or.inl hmem
      · have hcase : resource = .context := by simpa using hmem
        simp [hcase]
      · have hcase : resource = .pool := by simpa using hmem
        simp [hcase]
      · simp [uses] at hmem
    rcases hkind with ⟨shard, hshard, rfl⟩ | rfl | rfl | rfl | rfl
    · rw [count_release_lock hshard]
      rfl
    all_goals
      rw [count_release_other _ (by simp)]
      rfl
  · refine never_used_after_append.mpr ⟨?_, destroy_locks_never_used _, ?_⟩
    · simp [closeSocket, freeContext, NeverUsedAfter]
    · intro resource _ hmem
      simp [destroyLocks] at hmem

/-- A log with the limiter's locks that destroys none of them is not clean. -/
theorem kept_locks_not_clean {before after : ServerLog}
    (hbefore : .release (.lock 0) ∉ before) (hafter : .release (.lock 0) ∉ after) :
    ¬ Clean (before ++ acquireLocks ipLimiterShards ++ after) := by
  intro hclean
  have hacquired : Event.acquire (.lock 0) ∈ acquireLocks ipLimiterShards :=
    mem_acquire_locks.mpr ⟨0, by decide, rfl⟩
  have honce := hclean.once (.lock 0)
    (List.mem_append_left _ (List.mem_append_right _ hacquired))
  rw [List.count_append, List.count_append, List.count_eq_zero_of_not_mem hbefore,
    List.count_eq_zero_of_not_mem hafter,
    List.count_eq_zero_of_not_mem (release_not_mem_acquire_locks _ _)] at honce
  cases honce

/-- `create_ssl_context` destroys no mutex. -/
theorem ssl_context_keeps_locks (io : StartupIo) :
    Event.release (.lock 0) ∉ (createSslContextLog io).1 := by
  rw [createSslContextLog]
  split
  · split <;> simp
  · simp

/-- A context that is created is kept. -/
theorem ssl_context_created {io : StartupIo} (h : (createSslContextLog io).2 = true) :
    (createSslContextLog io).1 = [.acquire .context, .use .context] := by
  unfold createSslContextLog at h ⊢
  split
  · next hnew =>
      rw [if_pos hnew] at h
      split
      · rfl
      · next hcalls =>
          rw [if_neg hcalls] at h
          cases h
  · next hnew =>
      rw [if_neg hnew] at h
      cases h

/-- How `initialize_server` ends: before the limiter, behind it, or with everything set up. -/
theorem initialize_server_cases (io : StartupIo) :
    (¬ LimiterStarts io ∧ (initializeServerLog io).2 = false ∧ Clean (initializeServerLog io).1) ∨
      (LimiterStarts io ∧ ¬ ((createSslContextLog io).2 = true ∧ io.pool = true) ∧
        (initializeServerLog io).2 = false ∧ ¬ Clean (initializeServerLog io).1) ∨
      ((createSslContextLog io).2 = true ∧ io.pool = true ∧ (initializeServerLog io).2 = true ∧
        (initializeServerLog io).1 =
          [.acquire .ring, .acquire .socket] ++ acquireLocks ipLimiterShards ++
            [.acquire .context, .use .context] ++ [.acquire .pool]) := by
  unfold initializeServerLog LimiterStarts
  dsimp only
  cases io.ring with
  | false => exact Or.inl ⟨by simp, rfl, ⟨fun _ hmem => absurd hmem List.not_mem_nil, trivial⟩⟩
  | true =>
  cases io.socket with
  | false => exact Or.inl ⟨by simp, rfl, ⟨by simp, by simp [NeverUsedAfter]⟩⟩
  | true =>
  cases io.reuse && io.bind && io.listen with
  | false =>
      refine Or.inl ⟨by simp, rfl, ?_⟩
      exact failed_limiter_clean 0
  | true =>
  rcases ip_limiter_init_cases io with ⟨hlimiter, hlocks⟩ | ⟨hlimiter, count, hlocks⟩
  · refine Or.inr ?_
    rw [hlimiter, hlocks]
    cases hcontext : (createSslContextLog io).2 with
    | false =>
        refine Or.inl ⟨by simp, by simp, by simp, ?_⟩
        simp only [Bool.not_true, Bool.false_eq_true, if_false, Bool.not_false, if_true]
        rw [List.append_assoc _ (createSslContextLog io).1]
        refine kept_locks_not_clean (by simp) ?_
        simp [ssl_context_keeps_locks, closeSocket]
    | true =>
        cases hpool : io.pool with
        | false =>
            refine Or.inl ⟨by simp, by simp, by simp, ?_⟩
            simp only [Bool.not_true, Bool.false_eq_true, if_false, Bool.not_false, if_true]
            rw [List.append_assoc _ (createSslContextLog io).1,
              List.append_assoc _ (_ ++ closeSocket)]
            refine kept_locks_not_clean (by simp) ?_
            simp [ssl_context_keeps_locks, closeSocket, freeContext]
        | true =>
            refine Or.inr ⟨rfl, rfl, rfl, ?_⟩
            simp only [Bool.not_true, Bool.false_eq_true, if_false, ssl_context_created hcontext]
  · refine Or.inl ⟨by simp [hlimiter], by simp [hlimiter], ?_⟩
    simp only [hlimiter, hlocks, Bool.not_true, Bool.false_eq_true, if_false, Bool.not_false,
      if_true]
    exact failed_limiter_clean count

end Emme.Server
