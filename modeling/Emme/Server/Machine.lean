import Emme.Lib.Descriptors
import Emme.Server.ClientTask
import Emme.ThreadPool.TaskQueue

/-!
# The server and its descriptors

The accept loop of `start_server`, the worker tasks and the shutdown, interleaved in any order, over
one descriptor table. A call that opens a descriptor may return any number that is free at that
moment; every `close` is recorded with the descriptor it was made for and the one it hit.

`Emme.Lifecycle.Machine` has the shared variables of the same threads, and
`Emme.Lifecycle.Projection` finds to each of its runs one of this machine.
-/

namespace Emme.Server

open Descriptors ThreadPool

/-! ## The machine -/

/-- For whom a number is open. -/
inductive Owner where
  | connection (conn : Nat)
  /-- A variable of the task at `task` in the list of tasks. -/
  | auxiliary (task : Nat) (slot : Slot)
  /-- The client of a pooled backend connection. -/
  | pooled (index : Nat)
  /-- The listening socket, the global ring, log files, standard streams and the like. -/
  | other
  deriving DecidableEq, Repr

/-- `ClientTaskData`, with the connection it was made for. -/
structure ClientTaskData where
  conn : Nat
  clientFd : Nat
  deriving DecidableEq, Repr

/-- A task that a worker has started: its variables, those of them that hold an open descriptor,
and what it has still to do with descriptors. -/
structure ClientTask where
  data : ClientTaskData
  vars : Slot → Nat
  opened : List Slot
  todo : List FdOp

/-- `socket_fd` of a pooled backend connection. After an abandoned `http2_client_connect` the closed
number stays in it; the connection is unhealthy from then on, and `backend_pool_acquire`, which
alone calls `http2_client_cleanup` on it, passes over it. -/
inductive PoolSocket where
  | unset
  | live (fd : Nat)
  | stale (fd : Nat)
  deriving DecidableEq, Repr

/-- How far `start_server` is. -/
inductive Phase where
  | accepting
  /-- The accept loop is left; the workers go on. -/
  | draining
  /-- `thread_pool_destroy` has set `shutdown`: the workers finish their tasks and exit. -/
  | destroyed
  | returned
  deriving DecidableEq, Repr

/-- The server. `inHand` is the connection that `accept_and_dispatch_client` is dealing with. -/
structure State where
  fds : Table Owner
  accepted : Nat
  inHand : Option ClientTaskData
  queue : TaskQueue ClientTaskData
  tasks : List ClientTask
  pool : List PoolSocket
  phase : Phase

/-- Why `accept_and_dispatch_client` closes the connection itself before it has a task for it. -/
inductive Refusal where
  | shuttingDown
  | limiterRejected
  | limiterError
  | getFlagsFailed
  | setFlagsFailed
  | noTaskData
  deriving DecidableEq, Repr

/-- A step of the main thread, of a task, or of something else in the process. -/
inductive Label where
  /-- `accept` returns `fd`. -/
  | accept (fd : Nat)
  | refuse (why : Refusal)
  /-- `thread_pool_add_task`, with the result of the `malloc` it may make. -/
  | dispatch (memory : Option (Nat → ClientTaskData))
  | leaveLoop
  /-- A worker pops a task, which will go as `outcome` says. -/
  | pop (outcome : TaskEnd)
  /-- A task does its next operation; `fd` is what a call that opens a descriptor returns. -/
  | execute (task fd : Nat)
  /-- `socket` in a reconnection of a pooled connection. -/
  | poolConnect (index fd : Nat)
  /-- `http2_client_cleanup` of a pooled connection. -/
  | poolCleanup (index : Nat)
  /-- A reconnection is abandoned: the socket is closed but stays in `socket_fd`. -/
  | poolAbandon (index : Nat)
  | otherOpen (fd : Nat)
  | otherClose (fd : Nat)
  | destroy
  | finish

/-- `close (client_fd)` of `accept_and_dispatch_client`. -/
def State.closeInHand (s : State) (data : ClientTaskData) : State :=
  { s with fds := s.fds.close (.connection data.conn) data.clientFd, inHand := none }

/-- `client_task` before its first operation. -/
def ClientTask.start (data : ClientTaskData) (outcome : TaskEnd) : ClientTask where
  data := data
  vars _ := 0
  opened := []
  todo := clientTaskFds outcome

/-- The next operation of a task. -/
def State.executeOp (s : State) (t : Nat) (task : ClientTask) (fd : Nat) : Option State :=
  match task.todo with
  | [] => none
  | .acquire slot :: todo =>
      (s.fds.create (.auxiliary t slot) fd).map fun fds =>
        { s with
          fds
          tasks := s.tasks.set t { task with
            vars := Function.update task.vars slot fd, opened := slot :: task.opened, todo } }
  | .release slot :: todo =>
      some { s with
        fds := s.fds.close (.auxiliary t slot) (task.vars slot)
        tasks := s.tasks.set t { task with opened := task.opened.erase slot, todo } }
  | .closeClient :: todo =>
      some { s with
        fds := s.fds.close (.connection task.data.conn) task.data.clientFd
        tasks := s.tasks.set t { task with todo } }

/-- One step. -/
def State.next (s : State) : Label → Option State
  | .accept fd =>
      if s.phase = .accepting ∧ s.inHand = none then
        (s.fds.create (.connection s.accepted) fd).map fun fds =>
          { s with fds, accepted := s.accepted + 1, inHand := some ⟨s.accepted, fd⟩ }
      else none
  | .refuse why =>
      s.inHand.map fun data =>
        -- the loop ends when the connection was refused because of a shutdown
        { s.closeInHand data with phase := if why = .shuttingDown then .draining else s.phase }
  | .dispatch memory =>
      s.inHand.map fun data =>
        if (taskQueuePush s.queue data memory).1 then
          { s with queue := (taskQueuePush s.queue data memory).2, inHand := none }
        else s.closeInHand data
  | .leaveLoop =>
      if s.phase = .accepting ∧ s.inHand = none then some { s with phase := .draining } else none
  | .pop outcome =>
      if s.phase = .accepting ∨ s.phase = .draining then
        (taskQueuePop s.queue).1.map fun data =>
          { s with
            queue := (taskQueuePop s.queue).2, tasks := s.tasks ++ [ClientTask.start data outcome] }
      else none
  | .execute t fd => s.tasks[t]? >>= fun task => s.executeOp t task fd
  | .poolConnect index fd =>
      match s.pool[index]? with
      | some .unset =>
          (s.fds.create (.pooled index) fd).map fun fds =>
            { s with fds, pool := s.pool.set index (.live fd) }
      | _ => none
  | .poolCleanup index =>
      match s.pool[index]? with
      | some (.live fd) =>
          some { s with
            fds := s.fds.close (.pooled index) fd, pool := s.pool.set index .unset }
      | _ => none
  | .poolAbandon index =>
      match s.pool[index]? with
      | some (.live fd) =>
          some { s with
            fds := s.fds.close (.pooled index) fd, pool := s.pool.set index (.stale fd) }
      | _ => none
  | .otherOpen fd =>
      if s.fds.owner fd = none then some { s with fds := s.fds.assign fd (some .other) } else none
  | .otherClose fd =>
      if s.fds.owner fd = some .other then some { s with fds := s.fds.assign fd none } else none
  | .destroy => if s.phase = .draining then some { s with phase := .destroyed } else none
  | .finish =>
      if s.phase = .destroyed ∧ ∀ task ∈ s.tasks, task.todo = [] then
        some { s with phase := .returned }
      else none

/-- The server when `start_server` enters its loop: `others` are the numbers in use, and
`poolSize` is the number of pooled backend connections, none of which is connected. -/
def State.start (queue : TaskQueue ClientTaskData) (others : List Nat) (poolSize : Nat) :
    State where
  fds :=
    { owner fd := if fd ∈ others then some .other else none
      opened := []
      closes := [] }
  accepted := 0
  inHand := none
  queue := queue
  tasks := []
  pool := List.replicate poolSize .unset
  phase := .accepting

end Emme.Server
