import Emme.Lib.Threads
import Emme.Server.Machine

/-!
# Every descriptor is closed once

In a run in which no task serves HTTP/1.1 or abandons a direct backend connection, the task queue is
not doubled while `front` is 0 and the pool is not destroyed before the queue is empty, no `close`
hits another connection's descriptor and each is closed once (`clean_runs_close_once`). The
invariant: every part of the server that will still close a descriptor claims it, and the table
backs all claims.
-/

namespace Emme.Server

open Execution Descriptors ThreadPool Threads

/-! ## The property -/

/-- No `close` was made on a number that belonged to another connection. -/
def State.ClosesOwn (s : State) : Prop :=
  ∀ call ∈ s.fds.closes, ∀ conn, call.hit = some (.connection conn) →
    call.meant = .connection conn

/-- Each accepted descriptor has been closed exactly once: one `close` was made for it, and that
one closed it. -/
def State.ClosesOnce (s : State) : Prop :=
  ∀ conn < s.accepted, (s.fds.closes.filter fun call => call.meant = .connection conn) =
    [⟨.connection conn, some (.connection conn)⟩]

/-- The step stays off the paths on which the property fails: a task is not to serve HTTP/1.1 or
to abandon a direct backend connection, the queue is not doubled while `front` is 0, and the
thread pool is not destroyed while a task is queued. -/
def State.Admits (s : State) : Label → Prop
  | .dispatch memory =>
      match s.inHand with
      | none => True
      | some data => s.queue.GrowsOffStart (.push data memory)
  | .pop outcome => outcome.Clean
  | .destroy => s.queue.count = 0
  | _ => True

instance (s : State) : ∀ label, Decidable (s.Admits label)
  | .dispatch memory =>
      match h : s.inHand with
      | none => isTrue (by simp [State.Admits, h])
      | some data =>
          decidable_of_iff (s.queue.GrowsOffStart (.push data memory)) (by simp [State.Admits, h])
  | .pop outcome => inferInstanceAs (Decidable outcome.Clean)
  | .destroy => inferInstanceAs (Decidable (s.queue.count = 0))
  | .accept _ | .refuse _ | .leaveLoop | .execute _ _ | .poolConnect _ _ | .poolCleanup _
  | .poolAbandon _ | .otherOpen _ | .otherClose _ | .finish => isTrue trivial

/-! ## What the parts of the server hold -/

/-- The claim of a connection that waits for its task. -/
def ClientTaskData.claim (data : ClientTaskData) : Owner × Nat :=
  (.connection data.conn, data.clientFd)

/-- The claims of a task: the client's descriptor as long as it is still to be closed, and the
variables that hold an open descriptor. -/
def ClientTask.claims (t : Nat) (task : ClientTask) : List (Owner × Nat) :=
  (if .closeClient ∈ task.todo then [task.data.claim] else []) ++
    task.opened.map fun slot => (.auxiliary t slot, task.vars slot)

/-- The claim of a pooled connection. -/
def PoolSocket.claims (index : Nat) : PoolSocket → List (Owner × Nat)
  | .live fd => [(.pooled index, fd)]
  | .unset => []
  | .stale _ => []

/-- All claims. -/
def State.claims (s : State) : List (Owner × Nat) :=
  s.inHand.toList.map ClientTaskData.claim ++ s.queue.contents.map ClientTaskData.claim ++
    inventory ClientTask.claims s.tasks ++ inventory PoolSocket.claims s.pool

variable {s : State} {fd t index : Nat} {task : ClientTask} {slot : Slot} {todo : List FdOp}
  {memory : Option (Nat → ClientTaskData)}

/-- Where a claim comes from. -/
theorem mem_claims {who : Owner} (h : (who, fd) ∈ s.claims) :
    (∃ data, (s.inHand = some data ∨ data ∈ s.queue.contents) ∧ who = .connection data.conn) ∨
    (∃ task ∈ s.tasks, .closeClient ∈ task.todo ∧ who = .connection task.data.conn) ∨
    (∃ t task slot, s.tasks[t]? = some task ∧ slot ∈ task.opened ∧ who = .auxiliary t slot) ∨
    (∃ index, s.pool[index]? = some (.live fd) ∧ who = .pooled index) := by
  simp only [State.claims, List.mem_append, List.mem_map, Option.mem_toList] at h
  rcases h with ((⟨data, hdata, heq⟩ | ⟨data, hdata, heq⟩) | h) | h
  · exact Or.inl ⟨data, Or.inl hdata, (congrArg Prod.fst heq).symm⟩
  · exact Or.inl ⟨data, Or.inr hdata, (congrArg Prod.fst heq).symm⟩
  · obtain ⟨t, task, ht, hclaim⟩ := mem_inventory.mp h
    rcases List.mem_append.mp hclaim with hclaim | hclaim
    · split at hclaim
      · rename_i hclose
        have heq := congrArg Prod.fst (List.mem_singleton.mp hclaim)
        exact Or.inr (Or.inl ⟨task, List.mem_of_getElem? ht, hclose, heq⟩)
      · cases hclaim
    · obtain ⟨slot, hslot, heq⟩ := List.mem_map.mp hclaim
      exact Or.inr (Or.inr (Or.inl ⟨t, task, slot, ht, hslot, (congrArg Prod.fst heq).symm⟩))
  · obtain ⟨index, socket, hindex, hclaim⟩ := mem_inventory.mp h
    cases socket with
    | live number =>
        cases List.mem_singleton.mp hclaim
        exact Or.inr (Or.inr (Or.inr ⟨index, hindex, rfl⟩))
    | unset | stale => cases hclaim

/-- A variable that holds no open descriptor claims none. -/
theorem auxiliary_unclaimed (ht : s.tasks[t]? = some task) (hslot : slot ∉ task.opened) :
    Owner.auxiliary t slot ∉ s.claims.map Prod.fst := by
  intro hmem
  obtain ⟨⟨who, fd⟩, hclaim, rfl⟩ := List.mem_map.mp hmem
  rcases mem_claims hclaim with ⟨_, -, hwho⟩ | ⟨_, -, -, hwho⟩ |
    ⟨t', other, slot', ht', hslot', hwho⟩ | ⟨_, -, hwho⟩ <;> cases hwho
  cases ht.symm.trans ht'
  exact hslot hslot'

/-- A pooled connection without a socket claims none. -/
theorem pooled_unclaimed (hindex : s.pool[index]? = some .unset) :
    Owner.pooled index ∉ s.claims.map Prod.fst := by
  intro hmem
  obtain ⟨⟨who, fd⟩, hclaim, rfl⟩ := List.mem_map.mp hmem
  rcases mem_claims hclaim with ⟨_, -, hwho⟩ | ⟨_, -, -, hwho⟩ | ⟨_, _, _, -, -, hwho⟩ |
    ⟨index', hindex', hwho⟩ <;> cases hwho
  cases hindex.symm.trans hindex'

/-- The rest of the process claims nothing. -/
theorem other_unclaimed (s : State) : Owner.other ∉ s.claims.map Prod.fst := by
  intro hmem
  obtain ⟨⟨who, fd⟩, hclaim, rfl⟩ := List.mem_map.mp hmem
  rcases mem_claims hclaim with ⟨_, -, hwho⟩ | ⟨_, -, -, hwho⟩ | ⟨_, _, _, -, -, hwho⟩ |
    ⟨_, -, hwho⟩ <;> cases hwho

/-- A step of a task exchanges its claims and keeps the others. -/
theorem claims_set_task (ht : s.tasks[t]? = some task) :
    ∃ rest, s.claims.Perm (task.claims t ++ rest) ∧ ∀ fds task',
      { s with fds, tasks := s.tasks.set t task' : State }.claims.Perm
        (task'.claims t ++ rest) := by
  obtain ⟨rest, hold, hnew⟩ := inventory_set_perm ht
    (s.inHand.toList.map ClientTaskData.claim ++ s.queue.contents.map ClientTaskData.claim)
    (inventory PoolSocket.claims s.pool)
  exact ⟨rest, hold, fun fds task' => hnew task'⟩

/-- A step of a pooled connection exchanges its claims and keeps the others. -/
theorem claims_set_pool {socket : PoolSocket} (hindex : s.pool[index]? = some socket) :
    ∃ rest, s.claims.Perm (socket.claims index ++ rest) ∧ ∀ fds socket',
      { s with fds, pool := s.pool.set index socket' : State }.claims.Perm
        (socket'.claims index ++ rest) := by
  obtain ⟨rest, hold, hnew⟩ := inventory_set_perm hindex
    (s.inHand.toList.map ClientTaskData.claim ++ s.queue.contents.map ClientTaskData.claim ++
      inventory ClientTask.claims s.tasks) []
  simp only [List.append_nil] at hold hnew
  exact ⟨rest, hold, fun fds socket' => hnew socket'⟩

/-! ## One operation of a task -/

/-- Opening into a free variable adds one claim. -/
theorem claims_acquire (t : Nat) (htodo : task.todo = .acquire slot :: todo)
    (hslot : slot ∉ task.opened) (fd : Nat) :
    (ClientTask.claims t { task with
      vars := Function.update task.vars slot fd, opened := slot :: task.opened, todo }).Perm
      ((.auxiliary t slot, fd) :: task.claims t) := by
  have hothers : task.opened.map (fun other =>
      (Owner.auxiliary t other, Function.update task.vars slot fd other)) =
      task.opened.map fun other => (Owner.auxiliary t other, task.vars other) := by
    refine List.map_congr_left fun other hother => ?_
    rw [Function.update_of_ne (ne_of_mem_of_not_mem hother hslot)]
  have hclose : .closeClient ∈ task.todo ↔ .closeClient ∈ todo := by simp [htodo]
  simp only [ClientTask.claims, hclose, List.map_cons, Function.update_self, hothers]
  exact List.perm_middle

/-- Closing a variable that holds an open descriptor spends its claim. -/
theorem claims_release (htodo : task.todo = .release slot :: todo) (hslot : slot ∈ task.opened) :
    (task.claims t).Perm ((.auxiliary t slot, task.vars slot) ::
      ClientTask.claims t { task with opened := task.opened.erase slot, todo }) := by
  have hclose : .closeClient ∈ task.todo ↔ .closeClient ∈ todo := by simp [htodo]
  have hperm := (List.perm_cons_erase hslot).map fun other =>
    (Owner.auxiliary t other, task.vars other)
  simp only [ClientTask.claims, hclose]
  exact (hperm.append_left _).trans List.perm_middle

/-- Closing the client's descriptor for the last time spends the connection's claim. -/
theorem claims_close_client (htodo : task.todo = .closeClient :: todo)
    (hlast : .closeClient ∉ todo) :
    task.claims t = task.data.claim :: ClientTask.claims t { task with todo } := by
  simp [ClientTask.claims, htodo, hlast]

/-! ## One step of the server -/

/-- The rest of the task is balanced and closes the client's descriptor at most once. -/
structure ClientTask.Sound (task : ClientTask) : Prop where
  balanced : Balanced task.opened task.todo
  close_le : task.todo.count .closeClient ≤ 1

/-- The claims are backed by the table, one descriptor was opened for each accepted connection, and
a phase is entered only when what it leaves behind is done. -/
structure State.Sound (s : State) : Prop where
  queue_valid : s.queue.Valid
  backs : s.fds.Backs s.claims
  named : ∀ conn, s.fds.opened.count (.connection conn) = if conn < s.accepted then 1 else 0
  tasks_sound : ∀ task ∈ s.tasks, task.Sound
  hand_empty : s.phase ≠ .accepting → s.inHand = none
  drained : s.phase = .destroyed ∨ s.phase = .returned → s.queue.contents = []
  quiet : s.phase = .returned → ∀ task ∈ s.tasks, task.todo = []

variable {s s' : State}

/-- A connection in hand means that the accept loop is running. -/
theorem State.Sound.accepting (h : s.Sound) {data : ClientTaskData}
    (hdata : s.inHand = some data) : s.phase = .accepting := by
  by_contra hphase
  rw [h.hand_empty hphase] at hdata
  cases hdata

/-- Descriptors opened for something else than a connection leave the count of connections. -/
theorem named_create {table table' : Table Owner} {who : Owner}
    (hwho : ∀ conn, who ≠ .connection conn) (hcreate : table.create who fd = some table')
    (conn : Nat) :
    table'.opened.count (.connection conn) = table.opened.count (.connection conn) := by
  obtain ⟨-, rfl⟩ := create_eq_some hcreate
  exact List.count_cons_of_ne (hwho conn)

/-- A connection is accepted. -/
theorem accept_sound (h : s.Sound) (hnext : s.next (.accept fd) = some s') : s'.Sound := by
  simp only [State.next] at hnext
  split at hnext
  · rename_i hidle
    obtain ⟨haccepting, hhand⟩ := hidle
    obtain ⟨fds, hcreate, rfl⟩ := Option.map_eq_some_iff.mp hnext
    have hfresh : Owner.connection s.accepted ∉ s.claims.map Prod.fst := by
      have hcount := h.backs.counted (.connection s.accepted)
      rw [h.named, if_neg (Nat.lt_irrefl _)] at hcount
      exact List.count_eq_zero.mp (Nat.eq_zero_of_add_eq_zero_left hcount)
    refine ⟨h.queue_valid, ?_, fun conn => ?_, h.tasks_sound,
      fun hphase => absurd haccepting hphase, h.drained, h.quiet⟩
    · have hbacks := h.backs.create hfresh hcreate
      simpa [State.claims, hhand, ClientTaskData.claim] using hbacks
    · obtain ⟨-, rfl⟩ := create_eq_some hcreate
      have hnamed := h.named conn
      show (Owner.connection s.accepted :: s.fds.opened).count (.connection conn) =
        if conn < s.accepted + 1 then 1 else 0
      rw [List.count_cons, hnamed]
      simp only [beq_iff_eq, Owner.connection.injEq]
      split <;> split <;> split <;> omega
  · cases hnext

/-- The accept loop closes the connection in its hand. -/
theorem close_in_hand_sound {data : ClientTaskData} (h : s.Sound)
    (hdata : s.inHand = some data) : (s.closeInHand data).Sound := by
  have hbacks : s.fds.Backs (data.claim :: (s.closeInHand data).claims) := by
    simpa [State.claims, State.closeInHand, hdata] using h.backs
  exact ⟨h.queue_valid, hbacks.close, h.named, h.tasks_sound, fun _ => rfl, h.drained, h.quiet⟩

/-- A step that only enters another phase. -/
theorem phase_sound {phase : Phase} (h : s.Sound) (hhand : s.inHand = none)
    (hdrained : phase = .destroyed ∨ phase = .returned → s.queue.contents = [])
    (hquiet : phase = .returned → ∀ task ∈ s.tasks, task.todo = []) :
    { s with phase : State }.Sound :=
  ⟨h.queue_valid, h.backs, h.named, h.tasks_sound, fun _ => hhand, hdrained, hquiet⟩

/-- A number that nobody claims changes hands. -/
theorem assign_sound (h : s.Sound) (hunclaimed : ∀ claim ∈ s.claims, claim.2 ≠ fd)
    (value : Option Owner) : { s with fds := s.fds.assign fd value : State }.Sound :=
  ⟨h.queue_valid, h.backs.assign hunclaimed value, h.named, h.tasks_sound, h.hand_empty,
    h.drained, h.quiet⟩

/-- A connection is refused. -/
theorem refuse_sound {why : Refusal} (h : s.Sound) (hnext : s.next (.refuse why) = some s') :
    s'.Sound := by
  obtain ⟨data, hdata, rfl⟩ := Option.map_eq_some_iff.mp hnext
  have haccepting := h.accepting hdata
  refine phase_sound (close_in_hand_sound h hdata) rfl (fun hphase => ?_) fun hphase => ?_
  · rw [haccepting] at hphase
    split at hphase <;> simp at hphase
  · rw [haccepting] at hphase
    split at hphase <;> cases hphase

/-- A connection is handed to the thread pool. -/
theorem dispatch_sound (h : s.Sound) (hadmits : s.Admits (.dispatch memory))
    (hnext : s.next (.dispatch memory) = some s') : s'.Sound := by
  obtain ⟨data, hdata, rfl⟩ := Option.map_eq_some_iff.mp hnext
  have hgrow : s.queue.GrowsOffStart (.push data memory) := by
    simpa only [State.Admits, hdata] using hadmits
  obtain ⟨hvalid, hstep⟩ := task_queue_push_spec h.queue_valid data hgrow
  cases hadded : (taskQueuePush s.queue data memory).1 with
  | false =>
      rw [if_neg Bool.false_ne_true]
      exact close_in_hand_sound h hdata
  | true =>
      rw [hadded] at hstep
      rw [if_pos rfl]
      have haccepting := h.accepting hdata
      have hcontents := hstep.of_accepted
      refine ⟨hvalid, h.backs.perm ?_, h.named, h.tasks_sound, fun _ => rfl, ?_, h.quiet⟩
      · simp only [State.claims, hdata, hcontents, List.map_append, Option.toList_some,
          Option.toList_none, List.map_nil, List.nil_append]
        exact (List.perm_append_comm.append_right _).append_right _
      · rintro (hphase | hphase) <;> cases haccepting.symm.trans hphase

/-- A worker takes a task. -/
theorem pop_sound {outcome : TaskEnd} (h : s.Sound) (hclean : outcome.Clean)
    (hnext : s.next (.pop outcome) = some s') : s'.Sound := by
  simp only [State.next] at hnext
  split at hnext
  · rename_i hphase
    obtain ⟨data, hdata, rfl⟩ := Option.map_eq_some_iff.mp hnext
    obtain ⟨hvalid, hstep⟩ := task_queue_pop_spec h.queue_valid
    rw [hdata] at hstep
    have hcontents := hstep.of_popped
    have hcount : (clientTaskFds outcome).count .closeClient = 1 := by
      rw [client_task_close_count, hclean.not_serves_http1]
      rfl
    have hmem : FdOp.closeClient ∈ clientTaskFds outcome :=
      List.count_pos_iff.mp (by omega)
    have hclaims : (ClientTask.start data outcome).claims s.tasks.length = [data.claim] := by
      simp [ClientTask.claims, ClientTask.start, hmem]
    refine ⟨hvalid, h.backs.perm ?_, h.named, fun task htask => ?_, h.hand_empty,
      fun hlate => ?_, fun hlate => ?_⟩
    · simp only [State.claims, hcontents, inventory_concat, hclaims, List.map_cons,
        List.append_assoc, List.cons_append, List.nil_append]
      refine List.Perm.append_left _ ?_
      rw [← List.append_assoc, ← List.append_assoc]
      exact List.perm_middle.symm
    · rcases List.mem_append.mp htask with htask | htask
      · exact h.tasks_sound task htask
      · rw [List.mem_singleton.mp htask]
        exact ⟨client_task_balanced hclean, hcount.le⟩
    · rcases hphase with hphase | hphase <;> rcases hlate with hlate | hlate <;>
        cases hphase.symm.trans hlate
    · rcases hphase with hphase | hphase <;> cases hphase.symm.trans hlate
  · cases hnext

/-- A step in which only one task moves. -/
theorem task_sound {task' : ClientTask} {fds : Table Owner} (h : s.Sound)
    (ht : s.tasks[t]? = some task) (hbusy : task.todo ≠ []) (htask' : task'.Sound)
    (hbacks : fds.Backs { s with fds, tasks := s.tasks.set t task' : State }.claims)
    (hnamed : ∀ conn,
      fds.opened.count (.connection conn) = s.fds.opened.count (.connection conn)) :
    { s with fds, tasks := s.tasks.set t task' : State }.Sound := by
  refine ⟨h.queue_valid, hbacks, fun conn => (hnamed conn).trans (h.named conn), ?_,
    h.hand_empty, h.drained, ?_⟩
  · intro other hother
    rcases List.mem_or_eq_of_mem_set hother with hother | rfl
    · exact h.tasks_sound other hother
    · exact htask'
  · exact fun hphase => absurd (h.quiet hphase task (List.mem_of_getElem? ht)) hbusy

/-- A task does what is next on its descriptors. -/
theorem execute_sound (h : s.Sound) (ht : s.tasks[t]? = some task)
    (hnext : s.executeOp t task fd = some s') : s'.Sound := by
  obtain ⟨hbalanced, hclose⟩ := h.tasks_sound task (List.mem_of_getElem? ht)
  obtain ⟨rest, hold, hnew⟩ := claims_set_task ht
  unfold State.executeOp at hnext
  split at hnext
  · cases hnext
  · rename_i slot todo htodo
    obtain ⟨fds, hcreate, rfl⟩ := Option.map_eq_some_iff.mp hnext
    rw [htodo] at hbalanced hclose
    obtain ⟨hslot, hbalanced⟩ := hbalanced
    have hbacks := h.backs.create (auxiliary_unclaimed ht hslot) hcreate
    refine task_sound h ht (by simp [htodo]) ⟨hbalanced, ?_⟩ (hbacks.perm ?_)
      (named_create (fun conn => Owner.noConfusion) hcreate)
    · rwa [List.count_cons_of_ne FdOp.noConfusion] at hclose
    · have hopened := (claims_acquire t htodo hslot fd).append_right rest
      exact ((hold.cons _).trans hopened.symm).trans (hnew fds _).symm
  · rename_i slot todo htodo
    cases hnext
    rw [htodo] at hbalanced hclose
    obtain ⟨hslot, hbalanced⟩ := hbalanced
    have hbacks := h.backs.perm (hold.trans ((claims_release htodo hslot).append_right rest))
    refine task_sound h ht (by simp [htodo]) ⟨hbalanced, ?_⟩ (hbacks.close.perm (hnew _ _).symm)
      fun _ => rfl
    rwa [List.count_cons_of_ne FdOp.noConfusion] at hclose
  · rename_i todo htodo
    cases hnext
    rw [htodo] at hbalanced hclose
    rw [List.count_cons_self] at hclose
    have hlast : todo.count .closeClient = 0 := by omega
    have hbacks := h.backs.perm hold
    rw [claims_close_client htodo (List.count_eq_zero.mp hlast)] at hbacks
    exact task_sound h ht (by simp [htodo]) ⟨hbalanced, hlast.le.trans (Nat.zero_le 1)⟩
      (hbacks.close.perm (hnew _ _).symm) fun _ => rfl

/-- A step that only moves a pooled connection's socket. -/
theorem pool_sound {socket' : PoolSocket} {fds : Table Owner} (h : s.Sound)
    (hbacks : fds.Backs { s with fds, pool := s.pool.set index socket' : State }.claims)
    (hnamed : ∀ conn,
      fds.opened.count (.connection conn) = s.fds.opened.count (.connection conn)) :
    { s with fds, pool := s.pool.set index socket' : State }.Sound :=
  ⟨h.queue_valid, hbacks, fun conn => (hnamed conn).trans (h.named conn), h.tasks_sound,
    h.hand_empty, h.drained, h.quiet⟩

/-- A backend connection of the pool that has no descriptor gets one. -/
theorem pool_connect_sound (h : s.Sound) (hnext : s.next (.poolConnect index fd) = some s') :
    s'.Sound := by
  simp only [State.next] at hnext
  split at hnext
  · rename_i hindex
    obtain ⟨fds, hcreate, rfl⟩ := Option.map_eq_some_iff.mp hnext
    obtain ⟨rest, hold, hnew⟩ := claims_set_pool hindex
    refine pool_sound h ((h.backs.create (pooled_unclaimed hindex) hcreate).perm ?_)
      (named_create (fun conn => Owner.noConfusion) hcreate)
    exact (hold.cons _).trans (hnew fds (.live fd)).symm
  · cases hnext

/-- The socket of a pooled connection is closed; what stays in `socket_fd` claims nothing. -/
theorem pool_close_sound (h : s.Sound) (hindex : s.pool[index]? = some (.live fd))
    {socket' : PoolSocket} (hsocket' : socket'.claims index = []) :
    { s with
      fds := s.fds.close (.pooled index) fd
      pool := s.pool.set index socket' : State }.Sound := by
  obtain ⟨rest, hold, hnew⟩ := claims_set_pool hindex
  have hclosed := (h.backs.perm hold).close
  refine pool_sound h (hclosed.perm ?_) fun _ => rfl
  have hperm := hnew (s.fds.close (.pooled index) fd) socket'
  rw [hsocket'] at hperm
  exact hperm.symm

/-- An admitted step keeps the invariant. -/
theorem next_sound {label : Label} (h : s.Sound) (hadmits : s.Admits label)
    (hnext : s.next label = some s') : s'.Sound := by
  cases label with
  | accept fd => exact accept_sound h hnext
  | refuse why => exact refuse_sound h hnext
  | dispatch memory => exact dispatch_sound h hadmits hnext
  | leaveLoop =>
      obtain ⟨hidle, hnext⟩ := Option.ite_none_right_eq_some.mp hnext
      cases hnext
      refine phase_sound h hidle.2 ?_ fun hphase => by cases hphase
      rintro (hphase | hphase) <;> cases hphase
  | pop outcome => exact pop_sound h hadmits hnext
  | execute t fd =>
      obtain ⟨task, ht, hop⟩ := Option.bind_eq_some_iff.mp hnext
      exact execute_sound h ht hop
  | poolConnect index fd => exact pool_connect_sound h hnext
  | poolCleanup index | poolAbandon index =>
      simp only [State.next] at hnext
      split at hnext
      · rename_i fd hindex
        cases hnext
        exact pool_close_sound h hindex rfl
      · cases hnext
  | otherOpen fd =>
      obtain ⟨hfree, hnext⟩ := Option.ite_none_right_eq_some.mp hnext
      cases hnext
      exact assign_sound h (h.backs.unclaimed_of_free hfree) (some .other)
  | otherClose fd =>
      obtain ⟨howner, hnext⟩ := Option.ite_none_right_eq_some.mp hnext
      cases hnext
      exact assign_sound h (h.backs.unclaimed_of_owner howner (other_unclaimed s)) none
  | destroy =>
      obtain ⟨hdraining, hnext⟩ := Option.ite_none_right_eq_some.mp hnext
      cases hnext
      have hempty : s.queue.contents = [] := by
        rw [TaskQueue.contents, show s.queue.count = 0 from hadmits, RingBuffer.window_zero]
      have hhand := h.hand_empty (by simp [hdraining])
      exact phase_sound h hhand (fun _ => hempty) fun hphase => by cases hphase
  | finish =>
      obtain ⟨hdone, hnext⟩ := Option.ite_none_right_eq_some.mp hnext
      cases hnext
      have hhand := h.hand_empty (by simp [hdone.1])
      exact phase_sound h hhand (fun _ => h.drained (Or.inl hdone.1)) fun _ => hdone.2

/-! ## Runs -/

/-- At the start no connection has been accepted. -/
theorem start_sound {queue : TaskQueue ClientTaskData} (hinit : taskQueueInit memory = some queue)
    (others : List Nat) (poolSize : Nat) : (State.start queue others poolSize).Sound := by
  obtain ⟨hvalid, hempty⟩ := task_queue_init_valid hinit
  have hpool : inventory PoolSocket.claims (List.replicate poolSize .unset) = [] := by
    refine List.eq_nil_iff_forall_not_mem.mpr fun claim hclaim => ?_
    obtain ⟨index, socket, hindex, hclaim⟩ := mem_inventory.mp hclaim
    obtain rfl := List.eq_of_mem_replicate (List.mem_of_getElem? hindex)
    cases hclaim
  have hclaims : (State.start queue others poolSize).claims = [] := by
    simp only [State.claims, State.start, hempty, hpool]
    rfl
  refine ⟨hvalid, ?_, fun _ => rfl, ?_, fun _ => rfl, fun _ => hempty, ?_⟩
  · rw [hclaims]
    exact ⟨fun claim hclaim => absurd hclaim List.not_mem_nil, List.nodup_nil,
      fun call hcall => absurd hcall List.not_mem_nil, fun _ => rfl⟩
  · exact fun task htask => absurd htask List.not_mem_nil
  · exact fun _ task htask => absurd htask List.not_mem_nil

/-- In a sound state every `close` so far hit what it was made for. -/
theorem State.Sound.closes_own (h : s.Sound) : s.ClosesOwn := by
  intro call hcall conn hhit
  rw [h.backs.honest call hcall] at hhit
  exact Option.some.inj hhit

/-- When a sound server has returned, nobody is left who would close a connection. -/
theorem State.Sound.closes_once (h : s.Sound) (hreturned : s.phase = .returned) :
    s.ClosesOnce := by
  intro conn hconn
  have hunclaimed : Owner.connection conn ∉ s.claims.map Prod.fst := by
    intro hmem
    obtain ⟨⟨who, fd⟩, hclaim, rfl⟩ := List.mem_map.mp hmem
    rcases mem_claims hclaim with ⟨data, hdata | hdata, -⟩ | ⟨task, htask, hclose, -⟩ |
      ⟨_, _, _, -, -, hwho⟩ | ⟨_, -, hwho⟩
    · rw [h.hand_empty (by simp [hreturned])] at hdata
      cases hdata
    · rw [h.drained (Or.inr hreturned)] at hdata
      cases hdata
    · rw [h.quiet hreturned task htask] at hclose
      cases hclose
    · cases hwho
    · cases hwho
  have hcount := h.backs.counted (.connection conn)
  rw [h.named, if_pos hconn, List.count_eq_zero_of_not_mem hunclaimed, Nat.add_zero] at hcount
  exact h.backs.closes_eq_singleton hcount

/-- Along every admitted run no `close` is made on another connection's descriptor, and when
`start_server` has returned each accepted descriptor has been closed exactly once. -/
theorem clean_runs_close_once {memory : Option (Nat → ClientTaskData)}
    {queue : TaskQueue ClientTaskData} (hinit : taskQueueInit memory = some queue)
    (others : List Nat) (poolSize : Nat) {labels : List Label}
    (hadmits : Throughout State.next State.Admits (State.start queue others poolSize) labels)
    (hrun : run State.next (State.start queue others poolSize) labels = some s) :
    s.ClosesOwn ∧ (s.phase = .returned → s.ClosesOnce) := by
  have hsound := run_invariant (fun _ _ _ => next_sound) (start_sound hinit others poolSize)
    hadmits hrun
  exact ⟨hsound.closes_own, hsound.closes_once⟩

/-- Two connections, the second of which gets the number of the first: an HTTP/2 connection with
a static file and a proxied request, and one whose handshake fails. -/
def numberReused : List Label :=
  [.accept 5, .dispatch none, .pop ⟨true, .http2 [.static .ready, .proxyDirect .connected]⟩,
    .execute 0 6, .execute 0 7, .execute 0 0, .execute 0 7, .execute 0 0, .execute 0 0,
    .accept 5, .dispatch none, .leaveLoop, .pop ⟨true, .handshakeFailed⟩, .execute 0 0,
    .execute 1 6, .execute 1 0, .destroy, .execute 1 0, .finish]

/-- A number that is used twice is closed once for each connection. -/
theorem number_reused_closes_once :
    ∃ queue s, taskQueueInit (some fun _ => ⟨0, 0⟩) = some queue ∧
      Throughout State.next State.Admits (State.start queue [0, 1, 2] 1) numberReused ∧
      run State.next (State.start queue [0, 1, 2] 1) numberReused = some s ∧
      s.phase = .returned ∧ s.ClosesOwn ∧ s.ClosesOnce := by
  have hinit : taskQueueInit (some fun _ => (⟨0, 0⟩ : ClientTaskData)) =
      some ⟨fun _ => ⟨0, 0⟩, taskQueueInitialCapacity, 0, 0, 0⟩ := rfl
  have hadmits : Throughout State.next State.Admits
      (State.start ⟨fun _ => ⟨0, 0⟩, taskQueueInitialCapacity, 0, 0, 0⟩ [0, 1, 2] 1)
      numberReused := by decide +kernel
  have hreturns : (run State.next
      (State.start ⟨fun _ => ⟨0, 0⟩, taskQueueInitialCapacity, 0, 0, 0⟩ [0, 1, 2] 1)
      numberReused).map State.phase = some .returned := by decide +kernel
  obtain ⟨s, hrun, hphase⟩ := Option.map_eq_some_iff.mp hreturns
  obtain ⟨hown, honce⟩ := clean_runs_close_once hinit [0, 1, 2] 1 hadmits hrun
  exact ⟨_, s, hinit, hadmits, hrun, hphase, hown, honce hphase⟩

/-- An HTTP/1.1 connection gets the number 5. Between the two calls of `close` of its task the
accept loop accepts the next connection, which gets 5 as well and is refused afterwards. -/
def acceptedBetweenCloses : List Label :=
  [.accept 5, .dispatch none, .pop ⟨true, .http1 []⟩, .execute 0 6, .execute 0 0, .accept 5,
    .execute 0 0, .refuse .limiterRejected, .leaveLoop, .execute 0 0, .destroy, .finish]

/-- The second `close` of the task closes the connection that has got the number since. -/
theorem second_close_hits_next_connection :
    ∃ queue s, taskQueueInit (some fun _ => ⟨0, 0⟩) = some queue ∧
      run State.next (State.start queue [0, 1, 2] 0) acceptedBetweenCloses = some s ∧
      s.phase = .returned ∧ ¬ s.ClosesOwn ∧ ¬ s.ClosesOnce := by
  have hfinal : (run State.next
      (State.start ⟨fun _ => ⟨0, 0⟩, taskQueueInitialCapacity, 0, 0, 0⟩ [0, 1, 2] 0)
      acceptedBetweenCloses).map (fun s => (s.phase, s.accepted, s.fds.closes)) =
      some (.returned, 2, [⟨.auxiliary 0 .ring, some (.auxiliary 0 .ring)⟩,
        ⟨.connection 1, none⟩, ⟨.connection 0, some (.connection 1)⟩,
        ⟨.connection 0, some (.connection 0)⟩]) := by
    decide +kernel
  obtain ⟨s, hrun, hs⟩ := Option.map_eq_some_iff.mp hfinal
  simp only [Prod.mk.injEq] at hs
  obtain ⟨hphase, haccepted, hcloses⟩ := hs
  refine ⟨_, s, rfl, hrun, hphase, fun hown => ?_, fun honce => ?_⟩
  · cases hown ⟨.connection 0, some (.connection 1)⟩ (by simp [hcloses]) 1 rfl
  · have hfirst := honce 0 (by simp [haccepted])
    rw [hcloses] at hfirst
    revert hfirst
    decide

end Emme.Server
