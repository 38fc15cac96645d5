import Emme.IpLimiter.Exactness
import Emme.Lib.Threads
import Emme.Log.Ring
import Emme.Router.Responses

/-!
# The accept loop, the client tasks and the shutdown

The threads that share `g_shutdown_ctx` in `src/server.c`: the main thread with its accept loop and
the shutdown that follows, the client tasks, and the runs of the signal handler. Every access to a
shared variable and every call on the limiter is a step of its own, so that handlers interrupt any
thread, or each other, at any point. What the other calls answer is an input.

The thread pool is added in `Emme.Lifecycle.Service`; `Emme.Lifecycle.Projection` joins this machine
with that of the descriptors in `Emme.Server.Machine`.
-/

namespace Emme.Lifecycle

open Emme.IpLimiter Emme.Log Emme.Router

/-! ## The variables -/

/-- `shutdown_context_t`; `completed`, `forced` and `peakInFlight` are its `metrics`. -/
structure ShutdownContext where
  state : ShutdownState
  inFlightRequests : UInt64
  deadline : Timespec
  completed : UInt64
  forced : UInt64
  peakInFlight : UInt64
  timeoutSeconds : Int

/-- A connection that the limiter has answered `IP_LIMITER_OK`, by its number in the order of
these answers, with `client_ip`. -/
structure Client where
  conn : Nat
  ip : UInt32
  deriving DecidableEq, Repr

/-- Where the main thread is, with its local variables. At `testing` the accept loop loads the
state; `gettingFlags` and `settingFlags` are the calls of `fcntl`, `allocating` is `malloc`,
`counting` and `uncounting` are the `atomic_fetch_add` and `atomic_fetch_sub`, each followed by the
two steps that load the counter and store it in the gauge. `releasing` is the `ip_limiter_decrement`
of an exit. From `leaving` on the thread is in `perform_shutdown`. -/
inductive MainPoint where
  | testing
  | housekeeping
  | accepting
  | loadingState (ip : Option UInt32)
  | checking (ip : UInt32)
  | gettingFlags (client : Client)
  | settingFlags (client : Client)
  | allocating (client : Client)
  | counting (client : Client)
  | loadingCount (client : Client)
  | publishing (client : Client) (count : UInt64)
  | dispatching (client : Client)
  | uncounting (client : Client)
  | reloadingCount (client : Client)
  | republishing (client : Client) (count : UInt64)
  | releasing (client : Client)
  | leaving
  | draining
  | readingClock
  | forcing
  | loadingPeak
  | loadingRemaining (peak : UInt64)
  | storingCompleted (peak remaining : UInt64)
  | storingForced (peak remaining : UInt64)
  | reporting (peak : UInt64)
  | finished
  deriving DecidableEq, Repr

/-- Where a client task is: in the queue, at the set-up of its ring, in `handle_client`, at its
`ip_limiter_decrement`, at its `atomic_fetch_sub`, or at the update of the gauge. -/
inductive TaskPoint where
  | queued
  | starting
  | serving
  | releasing
  | uncounting
  | loadingCount
  | publishing (count : UInt64)
  | finished
  deriving DecidableEq, Repr

/-- A task that the thread pool accepted. -/
structure Task where
  client : Client
  point : TaskPoint
  deriving DecidableEq, Repr

/-- The two signals with a handler. -/
inductive Signal where
  | sigterm
  | sigint
  deriving DecidableEq, Repr

/-- Where a run of `handle_signal` is. -/
inductive HandlerPoint where
  | loadingState
  | storingForced
  | storingDraining
  | readingClock
  | addingTimeout
  | loadingCount
  | storingPeak (count : UInt64)
  | finished
  deriving DecidableEq, Repr

/-- A run of `handle_signal`. -/
structure Handler where
  sig : Signal
  point : HandlerPoint
  deriving DecidableEq, Repr

/-- The shared variables with all threads. Recorded beside them are the calls on the limiter with
their answers, the connections it admitted, and those an `ip_limiter_decrement`, an
`atomic_fetch_add` or an `atomic_fetch_sub` was made for. -/
structure State where
  ctx : ShutdownContext
  activeConnections : Int64
  limiter : Limiter
  main : MainPoint
  tasks : List Task
  handlers : List Handler
  calls : History
  admitted : List Client
  released : List Client
  counted : List Client
  uncounted : List Client

/-- What `initialize_server` leaves behind. -/
def initializeServer (limiter : Limiter) (timeoutSeconds : Int) : State where
  ctx :=
    { state := .running
      inFlightRequests := 0
      deadline := .ofSec 0
      completed := 0
      forced := 0
      peakInFlight := 0
      timeoutSeconds }
  activeConnections := 0
  limiter := limiter
  main := .testing
  tasks := []
  handlers := []
  calls := []
  admitted := []
  released := []
  counted := []
  uncounted := []

/-! ## What a connection still has to give back -/

/-- Where the connection stands that `accept_and_dispatch_client` is dealing with. -/
inductive Hand where
  | empty
  /-- Admitted by the limiter. -/
  | admitted (client : Client)
  /-- Admitted, and about to be counted: there is memory for its task. -/
  | allocated (client : Client)
  /-- Counted in `in_flight_requests`. -/
  | counted (client : Client)
  /-- Admitted, and not to be counted (any more). -/
  | abandoned (client : Client)
  deriving DecidableEq, Repr

/-- The connection that the main thread has in hand at a point. -/
def MainPoint.hand : MainPoint → Hand
  | .gettingFlags client => .admitted client
  | .settingFlags client => .admitted client
  | .allocating client => .admitted client
  | .counting client => .allocated client
  | .loadingCount client => .counted client
  | .publishing client _ => .counted client
  | .dispatching client => .counted client
  | .uncounting client => .counted client
  | .reloadingCount client => .abandoned client
  | .republishing client _ => .abandoned client
  | .releasing client => .abandoned client
  | _ => .empty

/-- The connection an `ip_limiter_decrement` has still to be made for. -/
def Hand.owing : Hand → List Client
  | .empty => []
  | .admitted client => [client]
  | .allocated client => [client]
  | .counted client => [client]
  | .abandoned client => [client]

/-- The connection an `atomic_fetch_sub` has still to be made for. -/
def Hand.outstanding : Hand → List Client
  | .counted client => [client]
  | _ => []

/-- The task has not made its `ip_limiter_decrement`. -/
def TaskPoint.owes : TaskPoint → Bool
  | .queued => true
  | .starting => true
  | .serving => true
  | .releasing => true
  | _ => false

/-- The task is queued or has not made its `atomic_fetch_sub`. -/
def TaskPoint.unfinished : TaskPoint → Bool
  | .queued => true
  | .starting => true
  | .serving => true
  | .releasing => true
  | .uncounting => true
  | _ => false

/-- The connection of the task, if an `ip_limiter_decrement` has still to be made for it. -/
def Task.owing (task : Task) : List Client := if task.point.owes then [task.client] else []

/-- The connection of the task, if an `atomic_fetch_sub` has still to be made for it. -/
def Task.outstanding (task : Task) : List Client :=
  if task.point.unfinished then [task.client] else []

/-- The connections an `ip_limiter_decrement` has still to be made for. -/
def State.owing (s : State) : List Client :=
  s.main.hand.owing ++ Threads.inventory (fun _ => Task.owing) s.tasks

/-- The connections an `atomic_fetch_sub` has still to be made for. -/
def State.outstanding (s : State) : List Client :=
  s.main.hand.outstanding ++ Threads.inventory (fun _ => Task.outstanding) s.tasks

/-! ## The steps -/

/-- How the `accept` of the main thread ends. -/
inductive AcceptEnd where
  /-- The ring fails, or the wait is interrupted: both results of the function end the loop. -/
  | failed
  /-- A negative `client_fd`. -/
  | noClient
  | client (ip : UInt32)
  deriving DecidableEq, Repr

/-- What the calls of a step answer: whether it succeeds (for `housekeeping`, whether the
statistics are due), how `accept` ends, and the two clocks. -/
structure Answers where
  ok : Bool := true
  accept : AcceptEnd := .noClient
  ns : UInt64 := 0
  clock : Timespec := .ofSec 0
  deriving DecidableEq, Repr

/-- The test of the drain loop for a deadline in the past. -/
def pastDeadline (now deadline : Timespec) : Prop :=
  now.sec > deadline.sec ∨ (now.sec = deadline.sec ∧ now.nsec > deadline.nsec)

instance (now deadline : Timespec) : Decidable (pastDeadline now deadline) :=
  inferInstanceAs (Decidable (_ ∨ _))

/-- A call on the limiter. -/
def State.call (s : State) (call : IpCall) : State :=
  { s with
    limiter := (s.limiter.step call).2
    calls := s.calls ++ [(call, (s.limiter.step call).1)] }

/-- `ip_limiter_check_and_increment` that answers `IP_LIMITER_OK`. -/
def State.enter (s : State) (ip : UInt32) (now : UInt64) : State :=
  { s.call (.check ip now) with admitted := s.admitted ++ [⟨s.admitted.length, ip⟩] }

/-- `ip_limiter_decrement` for a connection. -/
def State.release (s : State) (client : Client) : State :=
  { s.call (.decrement client.ip) with released := s.released ++ [client] }

/-- `atomic_fetch_add` for a connection. -/
def State.count (s : State) (client : Client) : State :=
  { s with
    ctx := { s.ctx with inFlightRequests := s.ctx.inFlightRequests + 1 }
    counted := s.counted ++ [client] }

/-- `atomic_fetch_sub` for a connection. -/
def State.uncount (s : State) (client : Client) : State :=
  { s with
    ctx := { s.ctx with inFlightRequests := s.ctx.inFlightRequests - 1 }
    uncounted := s.uncounted ++ [client] }

/-- The main thread goes on at another point. -/
def State.goto (s : State) (main : MainPoint) : State := { s with main }

/-- One step of the main thread. -/
def stepMain (s : State) (answers : Answers) : Option State :=
  match s.main with
  | .testing =>
      some (s.goto (if s.ctx.state = .running then .housekeeping else .leaving))
  | .housekeeping =>
      some ((if answers.ok then s.call (.compact answers.ns) else s).goto .accepting)
  | .accepting =>
      match answers.accept with
      | .failed => some (s.goto .leaving)
      | .noClient => some (s.goto (.loadingState none))
      | .client ip => some (s.goto (.loadingState (some ip)))
  | .loadingState ip =>
      if s.ctx.state ≠ .running then some (s.goto .leaving)
      else some (s.goto (ip.elim .testing .checking))
  | .checking ip =>
      match (s.limiter.step (.check ip answers.ns)).1 with
      | .checked .ok _ =>
          some ((s.enter ip answers.ns).goto (.gettingFlags ⟨s.admitted.length, ip⟩))
      | _ => some ((s.call (.check ip answers.ns)).goto .testing)
  | .gettingFlags client =>
      some (s.goto (if answers.ok then .settingFlags client else .releasing client))
  | .settingFlags client =>
      some (s.goto (if answers.ok then .allocating client else .releasing client))
  | .allocating client =>
      if answers.ok then
        -- every outstanding connection takes up some of the 2^64 bytes of the address space:
        -- its `ClientTaskData`, and once that is freed the stack of the worker that runs its task
        if s.outstanding.length + 1 < sizeModulus then some (s.goto (.counting client)) else none
      else some (s.goto (.releasing client))
  | .counting client => some ((s.count client).goto (.loadingCount client))
  | .loadingCount client => some (s.goto (.publishing client s.ctx.inFlightRequests))
  | .publishing client count =>
      some { s.goto (.dispatching client) with activeConnections := count.toInt64 }
  | .dispatching client =>
      if answers.ok then some { s.goto .testing with tasks := s.tasks ++ [⟨client, .queued⟩] }
      else some (s.goto (.uncounting client))
  | .uncounting client => some ((s.uncount client).goto (.reloadingCount client))
  | .reloadingCount client => some (s.goto (.republishing client s.ctx.inFlightRequests))
  | .republishing client count =>
      some { s.goto (.releasing client) with activeConnections := count.toInt64 }
  | .releasing client => some ((s.release client).goto .testing)
  | .leaving => some (s.goto (if s.ctx.state = .draining then .draining else .finished))
  | .draining =>
      some (s.goto (if 0 < s.ctx.inFlightRequests then .readingClock else .loadingPeak))
  | .readingClock =>
      some (s.goto (if pastDeadline answers.clock s.ctx.deadline then .forcing else .draining))
  | .forcing => some { s.goto .loadingPeak with ctx := { s.ctx with state := .forced } }
  | .loadingPeak => some (s.goto (.loadingRemaining s.ctx.peakInFlight))
  | .loadingRemaining peak => some (s.goto (.storingCompleted peak s.ctx.inFlightRequests))
  | .storingCompleted peak remaining =>
      some { s.goto (.storingForced peak remaining) with
        ctx := { s.ctx with completed := peak - remaining } }
  | .storingForced peak remaining =>
      some { s.goto (.reporting peak) with ctx := { s.ctx with forced := remaining } }
  | .reporting _ => some (s.goto .finished)
  | .finished => none

/-- The task at `t` goes on at another point. -/
def State.gotoTask (s : State) (t : Nat) (task : Task) (point : TaskPoint) : State :=
  { s with tasks := s.tasks.set t { task with point } }

/-- One step of a client task. A failed set-up of the ring makes the same updates as the end of
`handle_client`. -/
def stepTask (s : State) (t : Nat) (task : Task) (answers : Answers) : Option State :=
  match task.point with
  | .queued => some (s.gotoTask t task .starting)
  | .starting => some (s.gotoTask t task (if answers.ok then .serving else .releasing))
  | .serving => some (s.gotoTask t task .releasing)
  | .releasing => some ((s.release task.client).gotoTask t task .uncounting)
  | .uncounting => some ((s.uncount task.client).gotoTask t task .loadingCount)
  | .loadingCount => some (s.gotoTask t task (.publishing s.ctx.inFlightRequests))
  | .publishing count =>
      some { s.gotoTask t task .finished with activeConnections := count.toInt64 }
  | .finished => none

/-- The handler run at `h` goes on at another point. -/
def State.gotoHandler (s : State) (h : Nat) (handler : Handler) (point : HandlerPoint) : State :=
  { s with handlers := s.handlers.set h { handler with point } }

/-- One step of a handler run. -/
def stepHandler (s : State) (h : Nat) (handler : Handler) (answers : Answers) : Option State :=
  match handler.point with
  | .loadingState =>
      if s.ctx.state ≠ .running then some (s.gotoHandler h handler .finished)
      else
        match handler.sig with
        | .sigint => some (s.gotoHandler h handler .storingForced)
        | .sigterm => some (s.gotoHandler h handler .storingDraining)
  | .storingForced =>
      some { s.gotoHandler h handler .finished with ctx := { s.ctx with state := .forced } }
  | .storingDraining =>
      some { s.gotoHandler h handler .readingClock with ctx := { s.ctx with state := .draining } }
  | .readingClock =>
      some { s.gotoHandler h handler .addingTimeout with
        ctx := { s.ctx with deadline := answers.clock } }
  | .addingTimeout =>
      some { s.gotoHandler h handler .loadingCount with
        ctx := { s.ctx with
          deadline := { s.ctx.deadline with
            sec := s.ctx.deadline.sec + s.ctx.timeoutSeconds } } }
  | .loadingCount => some (s.gotoHandler h handler (.storingPeak s.ctx.inFlightRequests))
  | .storingPeak count =>
      some { s.gotoHandler h handler .finished with ctx := { s.ctx with peakInFlight := count } }
  | .finished => none

/-- What may happen next: the delivery of a signal, or a step of the main thread, of a task or of
a handler run. -/
inductive Label where
  | deliver (sig : Signal)
  | main (answers : Answers)
  | task (t : Nat) (answers : Answers)
  | handler (h : Nat) (answers : Answers)
  deriving DecidableEq, Repr

/-- A transition. -/
def next (s : State) : Label → Option State
  | .deliver sig => some { s with handlers := s.handlers ++ [⟨sig, .loadingState⟩] }
  | .main answers => stepMain s answers
  | .task t answers =>
      match s.tasks[t]? with
      | some task => stepTask s t task answers
      | none => none
  | .handler h answers =>
      match s.handlers[h]? with
      | some handler => stepHandler s h handler answers
      | none => none

end Emme.Lifecycle
