import Emme.Lib.CString
import Mathlib.Algebra.Group.Nat.Defs
import Mathlib.Logic.Function.Basic

/-!
# The logger and its ring

Model of `log_message`, `logger_thread_func` and `log_shutdown` in `src/log.c`. Every access to a
shared variable is a step of its own; one call of `log_message` at a time holds `log_lock`. A
message is stored at its index modulo the size of the ring.
-/

namespace Emme.Log

open CString

/-! ## The variables of the logger -/

/-- `LogLevel`. -/
inductive LogLevel where
  | debug
  | info
  | warn
  | error
  deriving DecidableEq, Repr

/-- The value of the enumerator. -/
def LogLevel.value : LogLevel → Nat
  | .debug => 0
  | .info => 1
  | .warn => 2
  | .error => 3

/-- `struct timespec`, as `clock_gettime` fills it. -/
structure Timespec where
  sec : Int
  nsec : Fin 1000000000
  deriving DecidableEq, Repr

/-- A time on the full second. -/
def Timespec.ofSec (sec : Int) : Timespec := ⟨sec, ⟨0, by decide⟩⟩

/-- `LogEntry`. -/
structure LogEntry where
  level : LogLevel
  message : Bytes
  timestamp : Timespec
  deriving DecidableEq, Repr

/-- `MAX_LOG_ENTRY_SIZE`. -/
def maxLogEntrySize : Nat := 1024

/-- The number of values of a `size_t`. -/
def sizeModulus : Nat := 2 ^ 64

/-- Where a call of `log_message` is, with its local variables. From `loadingHead` on it holds the
lock. `loadingHead` and `loadingTail` are the loads before the test for room, `pointing` loads
`log_buffer`, the `writing` points fill the slot, `publishing` stores `log_head`. At `faulting` the
slot is one of a null pointer. -/
inductive CallPoint where
  | entering
  | checking
  | filtering
  | locking
  | loadingHead
  | loadingTail (head : Nat)
  | pointing (head : Nat)
  | writingLevel (head : Nat)
  | writingTime (head : Nat)
  | writingMessage (head : Nat) (timestamp : Timespec)
  | publishing (head : Nat) (timestamp : Timespec)
  | unlocking
  | returned
  | faulting
  deriving DecidableEq, Repr

/-- A call of `log_message`; `message` is what `vsnprintf` makes of its arguments. -/
structure LogCall where
  level : LogLevel
  message : Bytes
  point : CallPoint
  deriving DecidableEq, Repr

/-- Where the logger thread is. The condition of its loop loads `logger_running`, `log_head` and
`log_tail`; its body loads the two indices, copies the entry field by field, formats and writes it,
and moves `log_tail`. -/
inductive LoggerPoint where
  | testing
  | comparingHead
  | comparingTail (head : Nat)
  | loadingTail
  | loadingHead (tail : Nat)
  | readingLevel (tail : Nat)
  | readingMessage (tail : Nat) (level : LogLevel)
  | readingTime (tail : Nat) (level : LogLevel) (message : Bytes)
  | writing (entry : LogEntry)
  | retiring
  | exited
  deriving DecidableEq, Repr

/-- Where the call of `log_shutdown` is. -/
inductive ShutdownPoint where
  | notCalled
  | joining
  | freeing
  | clearing
  | closing
  | returned
  deriving DecidableEq, Repr

/-- Why a message was not accepted. `waiting` is the number of messages in the ring at the moment
the call loaded `log_tail`. -/
inductive Drop where
  | belowLevel (level : LogLevel)
  | full (waiting : Nat)
  | notRunning
  deriving DecidableEq, Repr

/-- The static variables of `log.c` with all threads. `allocated` says that the memory `log_buffer`
was set to has not been freed, `logBuffer` that the pointer is not null. Recorded beside them is
what was accepted, formatted and dropped, and whether a freed slot or a null pointer was written
through. -/
structure LogState where
  buffer : Nat → LogEntry
  bufferSize : Nat
  allocated : Bool
  logBuffer : Bool
  head : Nat
  tail : Nat
  running : Bool
  level : LogLevel
  lock : Option Nat
  calls : List LogCall
  logger : LoggerPoint
  shutdown : ShutdownPoint
  accepted : List LogEntry
  formatted : List LogEntry
  drops : List Drop
  wroteFreed : Bool
  crashed : Bool

/-- What `log_init` leaves behind, whatever is in the memory it allocates. -/
def logInit (bufferSize : Nat) (level : LogLevel) (garbage : Nat → LogEntry) : LogState where
  buffer := garbage
  bufferSize := bufferSize
  allocated := true
  logBuffer := true
  head := 0
  tail := 0
  running := true
  level := level
  lock := none
  calls := []
  logger := .testing
  shutdown := .notCalled
  accepted := []
  formatted := []
  drops := []
  wroteFreed := false
  crashed := false

/-! ## The steps -/

/-- The call at `c` moves on. -/
def LogState.goto (s : LogState) (c : Nat) (call : LogCall) (point : CallPoint) : LogState :=
  { s with calls := s.calls.set c { call with point } }

/-- The call at `c` returns without having accepted its message. -/
def LogState.drop (s : LogState) (c : Nat) (call : LogCall) (reason : Drop)
    (point : CallPoint) : LogState :=
  { s.goto c call point with drops := s.drops ++ [reason] }

/-- A write to the slot of an index. -/
def LogState.write (s : LogState) (index : Nat) (change : LogEntry → LogEntry) : LogState :=
  { s with
    buffer := Function.update s.buffer (index % s.bufferSize)
      (change (s.buffer (index % s.bufferSize)))
    wroteFreed := s.wroteFreed || !s.allocated }

/-- One step of a call of `log_message`; `now` is what `clock_gettime` answers. -/
def stepCall (s : LogState) (c : Nat) (call : LogCall) (now : Timespec) : Option LogState :=
  match call.point with
  | .entering =>
      if s.logBuffer then some (s.goto c call .checking)
      else some (s.drop c call .notRunning .returned)
  | .checking =>
      if s.running then some (s.goto c call .filtering)
      else some (s.drop c call .notRunning .returned)
  | .filtering =>
      if call.level.value < s.level.value then
        some (s.drop c call (.belowLevel call.level) .returned)
      else some (s.goto c call .locking)
  | .locking =>
      if s.lock = none then some { s.goto c call .loadingHead with lock := some c } else none
  | .loadingHead => some (s.goto c call (.loadingTail s.head))
  | .loadingTail head =>
      if s.bufferSize ≤ (head + sizeModulus - s.tail) % sizeModulus then
        some (s.drop c call (.full (s.accepted.length - s.tail)) .unlocking)
      else some (s.goto c call (.pointing head))
  | .pointing head =>
      if s.logBuffer then some (s.goto c call (.writingLevel head))
      else some (s.goto c call .faulting)
  | .writingLevel head =>
      some ((s.write head fun entry => { entry with level := call.level }).goto c call
        (.writingTime head))
  | .writingTime head =>
      some ((s.write head fun entry => { entry with timestamp := now }).goto c call
        (.writingMessage head now))
  | .writingMessage head timestamp =>
      some ((s.write head fun entry => { entry with message := call.message }).goto c call
        (.publishing head timestamp))
  | .publishing head timestamp =>
      some { s.goto c call .unlocking with
        head := (head + 1) % sizeModulus
        accepted := s.accepted ++ [⟨call.level, call.message, timestamp⟩] }
  | .unlocking => some { s.goto c call .returned with lock := none }
  | .returned => none
  | .faulting => some { s with crashed := true }

/-- One step of `logger_thread_func`. -/
def stepLogger (s : LogState) : Option LogState :=
  match s.logger with
  | .testing =>
      some { s with logger := if s.running then .loadingTail else .comparingHead }
  | .comparingHead => some { s with logger := .comparingTail s.head }
  | .comparingTail head =>
      some { s with logger := if head = s.tail then .exited else .loadingTail }
  | .loadingTail => some { s with logger := .loadingHead s.tail }
  | .loadingHead tail =>
      some { s with logger := if tail = s.head then .testing else .readingLevel tail }
  | .readingLevel tail =>
      some { s with logger := .readingMessage tail (s.buffer (tail % s.bufferSize)).level }
  | .readingMessage tail level =>
      some { s with logger := .readingTime tail level (s.buffer (tail % s.bufferSize)).message }
  | .readingTime tail level message =>
      some { s with
        logger := .writing ⟨level, message, (s.buffer (tail % s.bufferSize)).timestamp⟩ }
  | .writing entry => some { s with logger := .retiring, formatted := s.formatted ++ [entry] }
  | .retiring => some { s with logger := .testing, tail := (s.tail + 1) % sizeModulus }
  | .exited => none

/-- One step of `log_shutdown`; `pthread_join` waits for the logger thread. -/
def stepShutdown (s : LogState) : Option LogState :=
  match s.shutdown with
  | .notCalled => some { s with running := false, shutdown := .joining }
  | .joining => if s.logger = .exited then some { s with shutdown := .freeing } else none
  | .freeing =>
      if s.logBuffer then some { s with allocated := false, shutdown := .clearing }
      else some { s with shutdown := .closing }
  | .clearing => some { s with logBuffer := false, shutdown := .closing }
  | .closing => some { s with shutdown := .returned }
  | .returned => none

/-- What may happen next: a new call of `log_message`, a step of a call, of the logger thread or
of `log_shutdown`. -/
inductive LogLabel where
  | call (level : LogLevel) (message : Bytes)
  | producer (c : Nat) (now : Timespec)
  | logger
  | shutdown
  deriving DecidableEq, Repr

/-- A new call, or one step of a thread. -/
def step (s : LogState) : LogLabel → Option LogState
  | .call level message =>
      some { s with
        calls := s.calls ++ [⟨level, message.take (maxLogEntrySize - 1), .entering⟩] }
  | .producer c now =>
      match s.calls[c]? with
      | some call => stepCall s c call now
      | none => none
  | .logger => stepLogger s
  | .shutdown => stepShutdown s

/-- A transition: there are steps until the program has crashed. -/
def next (s : LogState) (label : LogLabel) : Option LogState :=
  if s.crashed then none else step s label

/-- A transition is a step of a program that has not crashed. -/
theorem next_eq_some {s s' : LogState} {label : LogLabel} :
    next s label = some s' ↔ s.crashed = false ∧ step s label = some s' := by
  unfold next
  cases s.crashed <;> simp

end Emme.Log
