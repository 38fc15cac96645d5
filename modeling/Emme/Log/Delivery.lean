import Emme.Lib.Execution
import Emme.Lib.RingBuffer
import Emme.Lib.Threads
import Emme.Log.Ring

/-!
# What the logger delivers

While the logger is running the ring is sound (`ring_sound`). The call that holds the lock owns the
slot of the next index, the logger thread that of the oldest message, and both only ever learn late
what the other has done: they find less room, or fewer messages, than there are.
-/

namespace Emme.Log

open CString Execution Threads RingBuffer

/-! ## The invariant -/

/-- The call holds `log_lock`. -/
def LogCall.holds (call : LogCall) : Bool :=
  match call.point with
  | .entering => false
  | .checking => false
  | .filtering => false
  | .locking => false
  | .returned => false
  | _ => true

/-- The index is the next one, and its slot is free. -/
def LogState.Free (s : LogState) (index : Nat) : Prop :=
  index = s.head ∧ s.head - s.tail < s.bufferSize

/-- What a call knows: the head it loaded is still the head, the slot it writes is free, and what
it has written so far is there. A null pointer is only found when the logger is stopped. -/
def CallOk (s : LogState) (call : LogCall) : Prop :=
  match call.point with
  | .loadingTail head => head = s.head
  | .pointing head => s.Free head
  | .writingLevel head => s.Free head
  | .writingTime head =>
      s.Free head ∧ (s.buffer (head % s.bufferSize)).level = call.level
  | .writingMessage head timestamp =>
      s.Free head ∧ (s.buffer (head % s.bufferSize)).level = call.level ∧
        (s.buffer (head % s.bufferSize)).timestamp = timestamp
  | .publishing head timestamp =>
      s.Free head ∧ s.buffer (head % s.bufferSize) = ⟨call.level, call.message, timestamp⟩
  | .faulting => s.running = false
  | _ => True

/-- What the logger thread has read so far of the oldest message, and how much it has formatted. -/
def LoggerOk (s : LogState) : Prop :=
  match s.logger with
  | .loadingHead tail => tail = s.tail ∧ s.formatted = s.accepted.take s.tail
  | .readingLevel tail =>
      tail = s.tail ∧ s.tail < s.head ∧ s.formatted = s.accepted.take s.tail
  | .readingMessage tail level =>
      tail = s.tail ∧ s.formatted = s.accepted.take s.tail ∧
        ∃ entry, s.accepted[s.tail]? = some entry ∧ entry.level = level
  | .readingTime tail level message =>
      tail = s.tail ∧ s.formatted = s.accepted.take s.tail ∧
        ∃ entry, s.accepted[s.tail]? = some entry ∧ entry.level = level ∧
          entry.message = message
  | .writing entry =>
      s.formatted = s.accepted.take s.tail ∧ s.accepted[s.tail]? = some entry
  | .retiring => s.tail < s.head ∧ s.formatted = s.accepted.take (s.tail + 1)
  | _ => s.formatted = s.accepted.take s.tail

/-- The logger thread has seen that it is to stop. -/
def LoggerPoint.stopping : LoggerPoint → Bool
  | .comparingHead => true
  | .comparingTail _ => true
  | .exited => true
  | _ => false

/-- The message had a reason to be dropped. -/
def DropOk (s : LogState) : Drop → Prop
  | .belowLevel level => level.value < s.level.value
  | .full waiting => waiting = s.bufferSize
  | .notRunning => s.running = false

/-- What holds of the ring as long as fewer than `2 ^ 64` messages were accepted. -/
structure RingInv (s : LogState) : Prop where
  size_pos : 0 < s.bufferSize
  head_eq : s.head = s.accepted.length
  tail_le : s.tail ≤ s.head
  waiting_le : s.head - s.tail ≤ s.bufferSize
  stored : ∀ i entry, s.tail ≤ i → s.accepted[i]? = some entry →
    s.buffer (i % s.bufferSize) = entry
  holder : ∀ (c : Nat) (call : LogCall), s.calls[c]? = some call → call.holds = true →
    s.lock = some c
  call_ok : ∀ call ∈ s.calls, CallOk s call
  logger_ok : LoggerOk s
  drop_ok : ∀ reason ∈ s.drops, DropOk s reason
  open_ok : s.running = true → s.logBuffer = true
  shutdown_ok : s.shutdown ≠ .notCalled → s.running = false
  stopping_ok : s.logger.stopping = true → s.running = false
  crash_ok : s.crashed = true → s.running = false

variable {s : LogState}

/-- A call without the lock knows nothing of the ring. -/
theorem call_ok_of_not_holds {call : LogCall} (h : call.holds = false) : CallOk s call := by
  unfold LogCall.holds at h
  unfold CallOk
  cases hpoint : call.point <;> simp_all

/-- A fresh ring is sound. -/
theorem log_init_inv {bufferSize : Nat} (h : 0 < bufferSize) (level : LogLevel)
    (garbage : Nat → LogEntry) : RingInv (logInit bufferSize level garbage) where
  size_pos := h
  head_eq := rfl
  tail_le := Nat.le_refl 0
  waiting_le := Nat.zero_le _
  stored := fun _ _ _ hentry => by cases hentry
  holder := fun _ _ hcall => by cases hcall
  call_ok := fun _ hcall => by cases hcall
  logger_ok := rfl
  drop_ok := fun _ hreason => by cases hreason
  open_ok := fun _ => rfl
  shutdown_ok := fun h => absurd rfl h
  stopping_ok := fun h => by cases h
  crash_ok := fun h => by cases h

section Moves

variable {s : LogState} {c : Nat} {call : LogCall}

/-- A call that moves on without taking the lock leaves the holder of the lock as it is. -/
theorem RingInv.holder_set (hinv : RingInv s) (hc : s.calls[c]? = some call) {new : LogCall}
    (hholds : new.holds = true → call.holds = true) {c' : Nat} {call' : LogCall}
    (hcall' : (s.calls.set c new)[c']? = some call') (hholds' : call'.holds = true) :
    s.lock = some c' := by
  rcases get_set hcall' with ⟨rfl, rfl⟩ | ⟨-, hcall'⟩
  · exact hinv.holder c' call hc (hholds hholds')
  · exact hinv.holder c' call' hcall' hholds'

/-- No two calls hold the lock. -/
theorem RingInv.one_holder (hinv : RingInv s) (hc : s.calls[c]? = some call)
    (hholds : call.holds = true) {c' : Nat} {call' : LogCall} (hc' : s.calls[c']? = some call')
    (hholds' : call'.holds = true) : c' = c := by
  have hlock := (hinv.holder c' call' hc' hholds').symm.trans (hinv.holder c call hc hholds)
  exact Option.some.inj hlock

variable {point : CallPoint}

/-- A call that moves on without touching the shared variables, and without taking the lock. -/
theorem RingInv.goto (hinv : RingInv s) (hc : s.calls[c]? = some call)
    (hholds : ({ call with point } : LogCall).holds = true → call.holds = true)
    (hok : CallOk s { call with point }) : RingInv (s.goto c call point) :=
  { hinv with
    holder := fun _ _ => hinv.holder_set hc hholds
    call_ok := by
      intro call' hcall'
      rcases List.mem_or_eq_of_mem_set hcall' with hcall' | rfl
      · exact hinv.call_ok call' hcall'
      · exact hok }

/-- A call that gives up its message for a reason. -/
theorem RingInv.drop (hinv : RingInv s) (hc : s.calls[c]? = some call)
    (hholds : ({ call with point } : LogCall).holds = true → call.holds = true)
    (hok : CallOk s { call with point }) {reason : Drop} (hreason : DropOk s reason) :
    RingInv (s.drop c call reason point) :=
  { hinv.goto hc hholds hok with
    drop_ok := by
      intro reason' hmem
      rcases List.mem_append.mp hmem with hmem | hmem
      · exact hinv.drop_ok reason' hmem
      · rw [List.mem_singleton.mp hmem]
        exact hreason }

variable {s' : LogState}

/-- Only one call holds the lock, so what it changes concerns no other call. -/
theorem RingInv.calls_ok (hinv : RingInv s) (hc : s.calls[c]? = some call)
    (hholds : call.holds = true) {new : LogCall} (hcalls : s'.calls = s.calls.set c new)
    (hok : CallOk s' new) : ∀ call' ∈ s'.calls, CallOk s' call' := by
  intro call' hmem
  obtain ⟨c', hcall'⟩ := List.getElem?_of_mem hmem
  rw [hcalls] at hcall'
  rcases get_set hcall' with ⟨-, rfl⟩ | ⟨hne, hcall'⟩
  · exact hok
  · refine call_ok_of_not_holds ?_
    rw [← Bool.not_eq_true]
    intro hother
    exact hne (hinv.one_holder hc hholds hcall' hother)

/-- The slot of the next index is not that of a message that waits. -/
theorem slot_ne (hinv : RingInv s) (hfree : s.Free s.head) {i : Nat} (hi : s.tail ≤ i)
    (hlt : i < s.head) : i % s.bufferSize ≠ s.head % s.bufferSize := by
  have hne := @index_ne _ s.tail (i - s.tail) (s.head - s.tail) (by omega) hfree.2
  rwa [Nat.add_sub_cancel' hi, Nat.add_sub_cancel' hinv.tail_le] at hne

/-- The holder of the lock writes the free slot. -/
theorem RingInv.write (hinv : RingInv s) (hc : s.calls[c]? = some call)
    (hholds : call.holds = true) {head : Nat} (hfree : s.Free head) (change : LogEntry → LogEntry)
    (hok : CallOk (s.write head change) { call with point }) :
    RingInv ((s.write head change).goto c call point) :=
  { hinv with
    stored := by
      intro i entry hi hentry
      have hlt : i < s.head := hinv.head_eq ▸ (List.getElem?_eq_some_iff.mp hentry).1
      obtain ⟨rfl, hroom⟩ := hfree
      have hne := slot_ne hinv ⟨rfl, hroom⟩ hi hlt
      exact (Function.update_of_ne hne _ _).trans (hinv.stored i entry hi hentry)
    holder := fun _ _ => hinv.holder_set hc fun _ => hholds
    call_ok := hinv.calls_ok hc hholds rfl hok }

/-- What the logger thread knows stays true when a message is accepted. -/
theorem LoggerOk.accept (h : LoggerOk s) (hhead : s.head = s.accepted.length)
    (htail : s.tail ≤ s.head) (entry : LogEntry) :
    LoggerOk { s with head := s.head + 1, accepted := s.accepted ++ [entry] } := by
  have htake : (s.accepted ++ [entry]).take s.tail = s.accepted.take s.tail :=
    List.take_append_of_le_length (by omega)
  have hget {e : LogEntry} (he : s.accepted[s.tail]? = some e) :
      (s.accepted ++ [entry])[s.tail]? = some e := by
    rw [List.getElem?_append_left (List.getElem?_eq_some_iff.mp he).1, he]
  unfold LoggerOk at h ⊢
  dsimp only
  rw [htake]
  cases hpoint : s.logger with
  | readingLevel tail =>
      simp only [hpoint] at h
      exact ⟨h.1, Nat.lt_succ_of_lt h.2.1, h.2.2⟩
  | readingMessage tail level =>
      simp only [hpoint] at h
      obtain ⟨ht, hformatted, e, he, hlevel⟩ := h
      exact ⟨ht, hformatted, e, hget he, hlevel⟩
  | readingTime tail level message =>
      simp only [hpoint] at h
      obtain ⟨ht, hformatted, e, he, hfields⟩ := h
      exact ⟨ht, hformatted, e, hget he, hfields⟩
  | writing e =>
      simp only [hpoint] at h
      exact ⟨h.1, hget h.2⟩
  | retiring =>
      simp only [hpoint] at h
      refine ⟨Nat.lt_succ_of_lt h.1, h.2.trans ?_⟩
      exact (List.take_append_of_le_length (by omega)).symm
  | testing | comparingHead | comparingTail _ | loadingTail | loadingHead _ | exited =>
      simpa only [hpoint] using h

/-- The holder of the lock publishes the slot it has filled. -/
theorem RingInv.publish (hinv : RingInv s) (hc : s.calls[c]? = some call)
    (hholds : call.holds = true) {entry : LogEntry} (hfree : s.Free s.head)
    (hslot : s.buffer (s.head % s.bufferSize) = entry) :
    RingInv { s.goto c call .unlocking with
      head := s.head + 1, accepted := s.accepted ++ [entry] } :=
  { hinv with
    head_eq := by
      show s.head + 1 = (s.accepted ++ [entry]).length
      rw [hinv.head_eq, List.length_append, List.length_singleton]
    tail_le := Nat.le_succ_of_le hinv.tail_le
    waiting_le := by
      show s.head + 1 - s.tail ≤ s.bufferSize
      have hroom := hfree.2
      omega
    stored := by
      intro i e hi he
      rcases get_concat he with ⟨rfl, rfl⟩ | he
      · rw [← hinv.head_eq]
        exact hslot
      · exact hinv.stored i e hi he
    holder := fun _ _ => hinv.holder_set hc fun _ => hholds
    call_ok := hinv.calls_ok hc hholds rfl trivial
    logger_ok := hinv.logger_ok.accept hinv.head_eq hinv.tail_le entry }

/-- The lock is taken by a call while no other holds it. -/
theorem RingInv.lock (hinv : RingInv s) (hlock : s.lock = none) :
    RingInv { s.goto c call .loadingHead with lock := some c } := by
  have hnobody (call' : LogCall) (hcall' : call' ∈ s.calls) : call'.holds = false := by
    obtain ⟨c', hc'⟩ := List.getElem?_of_mem hcall'
    rw [← Bool.not_eq_true]
    intro hholds
    cases hlock.symm.trans (hinv.holder c' call' hc' hholds)
  exact
    { hinv with
      holder := by
        intro c' call' hcall' hcall
        rcases get_set hcall' with ⟨rfl, -⟩ | ⟨-, hcall'⟩
        · rfl
        · exact absurd hcall (by rw [hnobody call' (List.mem_of_getElem? hcall')]; simp)
      call_ok := by
        intro call' hcall'
        rcases List.mem_or_eq_of_mem_set hcall' with hcall' | rfl
        · exact call_ok_of_not_holds (hnobody call' hcall')
        · trivial }

/-- The lock is given up by its holder. -/
theorem RingInv.unlock (hinv : RingInv s) (hc : s.calls[c]? = some call)
    (hholds : call.holds = true) : RingInv { s.goto c call .returned with lock := none } :=
  { hinv with
    holder := by
      intro c' call' hcall' hcall
      rcases get_set hcall' with ⟨-, rfl⟩ | ⟨hne, hcall'⟩
      · cases hcall
      · exact absurd (hinv.one_holder hc hholds hcall' hcall) hne
    call_ok := hinv.calls_ok hc hholds rfl trivial }

/-- The number of messages that wait, as the unsigned subtraction computes it. -/
theorem waiting_eq (hinv : RingInv s) (hfew : s.accepted.length < sizeModulus) :
    (s.head + sizeModulus - s.tail) % sizeModulus = s.head - s.tail := by
  have htail := hinv.tail_le
  have hhead := hinv.head_eq
  rw [show s.head + sizeModulus - s.tail = s.head - s.tail + sizeModulus by omega,
    Nat.add_mod_right, Nat.mod_eq_of_lt (by omega)]

/-- What a step of a call leaves alone; it only ever adds to what was accepted. -/
structure CallFrame (s s' : LogState) : Prop where
  accepted : s.accepted <+: s'.accepted
  formatted : s'.formatted = s.formatted
  bufferSize : s'.bufferSize = s.bufferSize
  level : s'.level = s.level
  running : s'.running = s.running
  logger : s'.logger = s.logger
  shutdown : s'.shutdown = s.shutdown
  tail : s'.tail = s.tail
  allocated : s'.allocated = s.allocated
  logBuffer : s'.logBuffer = s.logBuffer

/-- Every step of a call keeps to its frame. -/
theorem step_call_frame {now : Timespec} (h : stepCall s c call now = some s') :
    CallFrame s s' := by
  have hsame : s.accepted <+: s.accepted := List.prefix_refl _
  unfold stepCall at h
  split at h
  case h_1 | h_2 | h_3 | h_6 | h_7 =>
      split at h <;> cases h <;> exact ⟨hsame, rfl, rfl, rfl, rfl, rfl, rfl, rfl, rfl, rfl⟩
  case h_4 =>
      split at h
      · cases h
        exact ⟨hsame, rfl, rfl, rfl, rfl, rfl, rfl, rfl, rfl, rfl⟩
      · cases h
  case h_5 | h_8 | h_9 | h_10 | h_12 | h_14 =>
      cases h
      exact ⟨hsame, rfl, rfl, rfl, rfl, rfl, rfl, rfl, rfl, rfl⟩
  case h_11 =>
      cases h
      exact ⟨List.prefix_append _ _, rfl, rfl, rfl, rfl, rfl, rfl, rfl, rfl, rfl⟩
  case h_13 => cases h

/-- Every step of a call keeps the invariant. -/
theorem step_call_inv (hinv : RingInv s) (hc : s.calls[c]? = some call) {now : Timespec}
    (h : stepCall s c call now = some s') (hfew : s'.accepted.length < sizeModulus) :
    RingInv s' := by
  have hok := hinv.call_ok call (List.mem_of_getElem? hc)
  have hsize : s.accepted.length < sizeModulus :=
    Nat.lt_of_le_of_lt (step_call_frame h).accepted.length_le hfew
  obtain ⟨level, message, point⟩ := call
  cases point with
  | entering =>
      simp only [stepCall] at h
      split at h
      · cases h
        exact hinv.goto hc (fun h => by cases h) trivial
      · rename_i hbuffer
        cases h
        refine hinv.drop hc (fun h => by cases h) (by exact trivial) ?_
        exact (Bool.not_eq_true _).mp fun hrunning => hbuffer (hinv.open_ok hrunning)
  | checking =>
      simp only [stepCall] at h
      split at h
      · cases h
        exact hinv.goto hc (fun h => by cases h) trivial
      · rename_i hrunning
        cases h
        refine hinv.drop hc (fun h => by cases h) (by exact trivial) ?_
        exact (Bool.not_eq_true _).mp hrunning
  | filtering =>
      simp only [stepCall] at h
      split at h
      · rename_i hlevel
        cases h
        exact hinv.drop hc (fun h => by cases h) (by exact trivial) hlevel
      · cases h
        exact hinv.goto hc (fun h => by cases h) trivial
  | locking =>
      obtain ⟨hlock, h⟩ := Option.ite_none_right_eq_some.mp h
      cases h
      exact hinv.lock hlock
  | loadingHead =>
      cases h
      exact hinv.goto hc (fun _ => rfl) rfl
  | loadingTail head =>
      obtain rfl : head = s.head := hok
      simp only [stepCall, waiting_eq hinv hsize] at h
      split at h
      · rename_i hfull
        cases h
        refine hinv.drop hc (fun _ => rfl) (by exact trivial) ?_
        show s.accepted.length - s.tail = s.bufferSize
        rw [← hinv.head_eq]
        exact Nat.le_antisymm hinv.waiting_le hfull
      · -- the room can only grow from here on: the head stands, and the tail moves up
        rename_i hroom
        cases h
        exact hinv.goto hc (fun _ => rfl) ⟨rfl, Nat.not_le.mp hroom⟩
  | pointing head =>
      simp only [stepCall] at h
      split at h
      · cases h
        exact hinv.goto hc (fun _ => rfl) hok
      · rename_i hnull
        cases h
        refine hinv.goto hc (fun _ => rfl) ?_
        exact (Bool.not_eq_true _).mp fun hrunning => hnull (hinv.open_ok hrunning)
  | writingLevel head =>
      cases h
      refine hinv.write hc rfl hok _ ⟨hok, ?_⟩
      simp [LogState.write]
  | writingTime head =>
      obtain ⟨hfree, hlevel⟩ := hok
      cases h
      refine hinv.write hc rfl hfree _ ⟨hfree, ?_, ?_⟩
      · simpa [LogState.write] using hlevel
      · simp [LogState.write]
  | writingMessage head timestamp =>
      obtain ⟨hfree, hlevel, htime⟩ := hok
      cases h
      refine hinv.write hc rfl hfree _ ⟨hfree, ?_⟩
      simp [LogState.write, hlevel, htime]
  | publishing head timestamp =>
      obtain ⟨⟨rfl, hroom⟩, hslot⟩ := hok
      cases h
      -- the index does not wrap around before `2 ^ 64` messages
      have hwrap : (s.head + 1) % sizeModulus = s.head + 1 := by
        refine Nat.mod_eq_of_lt ?_
        rw [hinv.head_eq]
        exact List.length_append.symm.trans_lt hfew
      rw [hwrap]
      exact hinv.publish hc rfl ⟨rfl, hroom⟩ hslot
  | unlocking =>
      cases h
      exact hinv.unlock hc rfl
  | returned => cases h
  | faulting =>
      cases h
      exact { hinv with crash_ok := fun _ => hok }

/-- The oldest message is in its slot. -/
theorem RingInv.oldest (hinv : RingInv s) (hlt : s.tail < s.head) :
    s.accepted[s.tail]? = some (s.buffer (s.tail % s.bufferSize)) := by
  have hlt : s.tail < s.accepted.length := hinv.head_eq ▸ hlt
  have hget := List.getElem?_eq_getElem hlt
  rw [hget, hinv.stored s.tail _ (Nat.le_refl _) hget]

/-- The oldest message is retired. -/
theorem RingInv.retire (hinv : RingInv s) (hlt : s.tail < s.head)
    (hformatted : s.formatted = s.accepted.take (s.tail + 1)) :
    RingInv { s with logger := .testing, tail := s.tail + 1 } :=
  { hinv with
    tail_le := hlt
    waiting_le := by
      show s.head - (s.tail + 1) ≤ s.bufferSize
      have hle := hinv.waiting_le
      omega
    stored := fun i entry hi => hinv.stored i entry (Nat.le_of_succ_le hi)
    call_ok := by
      intro call hcall
      have hok := hinv.call_ok call hcall
      have hfree {head : Nat} (h : s.Free head) :
          LogState.Free { s with logger := .testing, tail := s.tail + 1 } head :=
        ⟨h.1, Nat.lt_of_le_of_lt (Nat.sub_le_sub_left (Nat.le_succ _) _) h.2⟩
      unfold CallOk at hok ⊢
      cases hpoint : call.point with
      | loadingTail | faulting => simpa only [hpoint] using hok
      | pointing | writingLevel =>
          simp only [hpoint] at hok
          exact hfree hok
      | writingTime | writingMessage | publishing =>
          simp only [hpoint] at hok
          exact ⟨hfree hok.1, hok.2⟩
      | entering | checking | filtering | locking | loadingHead | unlocking | returned => trivial
    logger_ok := hformatted
    stopping_ok := fun h => by cases h }

/-- The logger thread moves on without touching the shared variables. -/
theorem RingInv.logger_goto (hinv : RingInv s) {point : LoggerPoint}
    (hok : LoggerOk { s with logger := point })
    (hstop : point.stopping = true → s.running = false) : RingInv { s with logger := point } :=
  { hinv with
    logger_ok := hok
    stopping_ok := hstop }

/-- A step of the logger thread keeps the ring sound. -/
theorem step_logger_inv (hinv : RingInv s) (h : stepLogger s = some s')
    (hfew : s.accepted.length < sizeModulus) : RingInv s' := by
  have hok := hinv.logger_ok
  cases hpoint : s.logger with
  | testing =>
      simp only [stepLogger, LoggerOk, hpoint] at h hok
      by_cases hrunning : s.running = true
      · rw [if_pos hrunning] at h
        cases h
        exact hinv.logger_goto hok (fun h => by cases h)
      · rw [if_neg hrunning] at h
        cases h
        exact hinv.logger_goto hok fun _ => (Bool.not_eq_true _).mp hrunning
  | comparingHead =>
      simp only [stepLogger, LoggerOk, hpoint] at h hok
      cases h
      exact hinv.logger_goto hok fun _ => hinv.stopping_ok (by rw [hpoint]; rfl)
  | comparingTail head =>
      simp only [stepLogger, LoggerOk, hpoint] at h hok
      by_cases hempty : head = s.tail
      · rw [if_pos hempty] at h
        cases h
        exact hinv.logger_goto hok fun _ => hinv.stopping_ok (by rw [hpoint]; rfl)
      · rw [if_neg hempty] at h
        cases h
        exact hinv.logger_goto hok (fun h => by cases h)
  | loadingTail =>
      simp only [stepLogger, LoggerOk, hpoint] at h hok
      cases h
      exact hinv.logger_goto ⟨rfl, hok⟩ (fun h => by cases h)
  | loadingHead tail =>
      simp only [stepLogger, LoggerOk, hpoint] at h hok
      obtain ⟨rfl, hformatted⟩ := hok
      by_cases hempty : s.tail = s.head
      · rw [if_pos hempty] at h
        cases h
        exact hinv.logger_goto hformatted (fun h => by cases h)
      · rw [if_neg hempty] at h
        cases h
        exact hinv.logger_goto ⟨rfl, Nat.lt_of_le_of_ne hinv.tail_le hempty, hformatted⟩
          (fun h => by cases h)
  | readingLevel tail =>
      simp only [stepLogger, LoggerOk, hpoint] at h hok
      obtain ⟨rfl, hlt, hformatted⟩ := hok
      cases h
      exact hinv.logger_goto ⟨rfl, hformatted, _, hinv.oldest hlt, rfl⟩
        (fun h => by cases h)
  | readingMessage tail level =>
      simp only [stepLogger, LoggerOk, hpoint] at h hok
      obtain ⟨rfl, hformatted, entry, hentry, hlevel⟩ := hok
      cases h
      -- calls that came between have not written the slot of the oldest message
      have hslot := hinv.stored s.tail entry (Nat.le_refl _) hentry
      exact hinv.logger_goto ⟨rfl, hformatted, entry, hentry, hlevel, by rw [hslot]⟩
        (fun h => by cases h)
  | readingTime tail level message =>
      simp only [stepLogger, LoggerOk, hpoint] at h hok
      obtain ⟨rfl, hformatted, entry, hentry, rfl, rfl⟩ := hok
      cases h
      have hslot := hinv.stored s.tail entry (Nat.le_refl _) hentry
      rw [hslot]
      exact hinv.logger_goto ⟨hformatted, hentry⟩ (fun h => by cases h)
  | writing entry =>
      simp only [stepLogger, LoggerOk, hpoint] at h hok
      obtain ⟨hformatted, hentry⟩ := hok
      cases h
      refine { hinv with logger_ok := ⟨?_, ?_⟩, stopping_ok := fun h => by cases h }
      · rw [hinv.head_eq]
        exact (List.getElem?_eq_some_iff.mp hentry).1
      · show s.formatted ++ [entry] = s.accepted.take (s.tail + 1)
        rw [List.take_add_one, hentry, hformatted]
        rfl
  | retiring =>
      simp only [stepLogger, LoggerOk, hpoint] at h hok
      obtain ⟨hlt, hformatted⟩ := hok
      cases h
      have hhead := hinv.head_eq
      rw [Nat.mod_eq_of_lt (show s.tail + 1 < sizeModulus by omega)]
      exact hinv.retire hlt hformatted
  | exited =>
      simp only [stepLogger, hpoint] at h
      cases h

/-- A message that was dropped had its reason, also after the logger has stopped. -/
theorem DropOk.stopped {reason : Drop} (h : DropOk s reason) (point : ShutdownPoint) :
    DropOk { s with running := false, shutdown := point } reason := by
  cases reason with
  | belowLevel level => exact h
  | full waiting => exact h
  | notRunning => rfl

/-- What a call knows stays true when the logger is stopped. -/
theorem CallOk.stopped (h : CallOk s call) (point : ShutdownPoint) :
    CallOk { s with running := false, shutdown := point } call := by
  unfold CallOk at h ⊢
  cases hpoint : call.point <;> simp only [hpoint] at h ⊢ <;> exact h

/-- A step of `log_shutdown` keeps the ring sound. -/
theorem step_shutdown_inv (hinv : RingInv s) (h : stepShutdown s = some s') : RingInv s' := by
  unfold stepShutdown at h
  split at h
  case h_1 =>
      cases h
      exact
        { hinv with
          call_ok := fun call hcall => (hinv.call_ok call hcall).stopped _
          drop_ok := fun reason hreason => (hinv.drop_ok reason hreason).stopped _
          open_ok := fun hrunning => by cases hrunning
          shutdown_ok := fun _ => rfl
          stopping_ok := fun _ => rfl
          crash_ok := fun _ => rfl }
  case h_2 hpoint =>
      split at h
      · cases h
        exact { hinv with shutdown_ok := fun _ => hinv.shutdown_ok (by simp [hpoint]) }
      · cases h
  case h_3 hpoint =>
      split at h <;> cases h <;>
        exact { hinv with shutdown_ok := fun _ => hinv.shutdown_ok (by simp [hpoint]) }
  case h_4 hpoint =>
      have hstopped : s.running = false := hinv.shutdown_ok (by simp [hpoint])
      cases h
      exact
        { hinv with
          open_ok := fun hrunning => Bool.noConfusion (hstopped.symm.trans hrunning)
          shutdown_ok := fun _ => hstopped }
  case h_5 hpoint =>
      cases h
      exact { hinv with shutdown_ok := fun _ => hinv.shutdown_ok (by simp [hpoint]) }
  case h_6 => cases h

/-- Every transition keeps what was accepted and the configuration. -/
theorem next_keeps {label : LogLabel} (h : next s label = some s') :
    s.accepted <+: s'.accepted ∧ s'.bufferSize = s.bufferSize ∧ s'.level = s.level := by
  have hsame : s.accepted <+: s.accepted ∧ s.bufferSize = s.bufferSize ∧ s.level = s.level :=
    ⟨List.prefix_refl _, rfl, rfl⟩
  obtain ⟨-, h⟩ := next_eq_some.mp h
  cases label with
  | call level message =>
      cases h
      exact hsame
  | producer c now =>
      simp only [step] at h
      split at h
      · have hframe := step_call_frame h
        exact ⟨hframe.accepted, hframe.bufferSize, hframe.level⟩
      · cases h
  | logger =>
      simp only [step, stepLogger] at h
      split at h <;> cases h <;> exact hsame
  | shutdown =>
      simp only [step, stepShutdown] at h
      split at h
      case h_1 | h_4 | h_5 =>
          cases h
          exact hsame
      case h_2 =>
          split at h
          · cases h
            exact hsame
          · cases h
      case h_3 => split at h <;> cases h <;> exact hsame
      case h_6 => cases h

/-- A new call knows nothing and holds nothing. -/
theorem RingInv.new_call (hinv : RingInv s) (level : LogLevel) (message : Bytes) :
    RingInv { s with calls := s.calls ++ [⟨level, message, .entering⟩] } :=
  { hinv with
    holder := by
      intro c call hcall hholds
      rcases get_concat hcall with ⟨-, rfl⟩ | hcall
      · cases hholds
      · exact hinv.holder c call hcall hholds
    call_ok := by
      intro call hcall
      rcases List.mem_append.mp hcall with hcall | hcall
      · exact hinv.call_ok call hcall
      · rw [List.mem_singleton.mp hcall]
        trivial }

/-- Every step keeps the ring sound. -/
theorem next_inv {label : LogLabel} (hinv : RingInv s) (h : next s label = some s')
    (hfew : s'.accepted.length < sizeModulus) : RingInv s' := by
  have hsize : s.accepted.length < sizeModulus :=
    Nat.lt_of_le_of_lt (next_keeps h).1.length_le hfew
  obtain ⟨-, h⟩ := next_eq_some.mp h
  cases label with
  | call level message =>
      cases h
      exact hinv.new_call level _
  | producer c now =>
      simp only [step] at h
      split at h
      · rename_i call hc
        exact step_call_inv hinv hc h hfew
      · cases h
  | logger => exact step_logger_inv hinv h hsize
  | shutdown => exact step_shutdown_inv hinv h

end Moves

/-! ## Whole runs -/

/-- A run takes no message back, and changes neither size nor level. -/
theorem run_keeps {final : LogState} {labels : List LogLabel}
    (hrun : run next s labels = some final) :
    s.accepted <+: final.accepted ∧ final.bufferSize = s.bufferSize ∧ final.level = s.level := by
  have hstep : ∀ state label following, (s.accepted <+: state.accepted ∧
      state.bufferSize = s.bufferSize ∧ state.level = s.level) →
      next state label = some following → s.accepted <+: following.accepted ∧
        following.bufferSize = s.bufferSize ∧ following.level = s.level := by
    intro state label following hstate hnext
    obtain ⟨haccepted, hsize, hlevel⟩ := next_keeps hnext
    exact ⟨hstate.1.trans haccepted, hsize.trans hstate.2.1, hlevel.trans hstate.2.2⟩
  exact run_preserves hstep ⟨List.prefix_refl _, rfl, rfl⟩ hrun

/-- Every run keeps the ring sound. -/
theorem run_inv {final : LogState} {labels : List LogLabel} (hinv : RingInv s)
    (hrun : run next s labels = some final) (hfew : final.accepted.length < sizeModulus) :
    RingInv final := by
  have hstep : ∀ state label following,
      (state.accepted.length < sizeModulus → RingInv state) →
      next state label = some following →
      following.accepted.length < sizeModulus → RingInv following := by
    intro state label following hstate hnext hfollowing
    have hsize := Nat.lt_of_le_of_lt (next_keeps hnext).1.length_le hfollowing
    exact next_inv (hstate hsize) hnext hfollowing
  exact run_preserves hstep (fun _ => hinv) hrun hfew

/-- How far the logger thread is from the end of its round. -/
def LoggerPoint.toGo : LoggerPoint → Nat
  | .testing => 8
  | .loadingTail => 7
  | .loadingHead _ => 6
  | .readingLevel _ => 5
  | .readingMessage _ _ => 4
  | .readingTime _ _ _ => 3
  | .writing _ => 2
  | .retiring => 1
  | _ => 0

/-- A bound for the steps the logger thread needs for the messages that wait. -/
def LogState.backlog (s : LogState) : Nat := 8 * (s.head - s.tail) + s.logger.toGo

/-- While there is something to format, the logger thread gets nearer to it. -/
theorem logger_progress (hinv : RingInv s) (hrunning : s.running = true)
    (hfew : s.accepted.length < sizeModulus) (hbehind : s.formatted ≠ s.accepted) :
    ∃ s', next s .logger = some s' ∧ s'.backlog < s.backlog ∧ s'.running = true ∧
      s'.accepted = s.accepted := by
  have hok := hinv.logger_ok
  have hgoing : s.logger.stopping ≠ true := fun h =>
    Bool.noConfusion (hrunning.symm.trans (hinv.stopping_ok h))
  have hwhole : s.crashed ≠ true := fun h =>
    Bool.noConfusion (hrunning.symm.trans (hinv.crash_ok h))
  unfold LoggerOk at hok
  simp only [next, if_neg hwhole, step, stepLogger, LogState.backlog]
  cases hpoint : s.logger with
  | testing =>
      refine ⟨_, rfl, ?_, hrunning, rfl⟩
      rw [if_pos hrunning]
      exact Nat.lt_succ_self _
  | loadingTail => exact ⟨_, rfl, Nat.lt_succ_self _, hrunning, rfl⟩
  | loadingHead tail =>
      simp only [hpoint] at hok
      obtain ⟨rfl, hformatted⟩ := hok
      have hne : s.tail ≠ s.head := by
        intro heq
        rw [heq, hinv.head_eq, List.take_length] at hformatted
        exact hbehind hformatted
      refine ⟨_, rfl, ?_, hrunning, rfl⟩
      rw [if_neg hne]
      exact Nat.lt_succ_self _
  | readingLevel tail => exact ⟨_, rfl, Nat.lt_succ_self _, hrunning, rfl⟩
  | readingMessage tail level => exact ⟨_, rfl, Nat.lt_succ_self _, hrunning, rfl⟩
  | readingTime tail level message => exact ⟨_, rfl, Nat.lt_succ_self _, hrunning, rfl⟩
  | writing entry => exact ⟨_, rfl, Nat.lt_succ_self _, hrunning, rfl⟩
  | retiring =>
      simp only [hpoint] at hok
      have hhead := hinv.head_eq
      refine ⟨_, rfl, ?_, hrunning, rfl⟩
      -- a whole round starts again, for one message less
      show 8 * (s.head - (s.tail + 1) % sizeModulus) + 8 < 8 * (s.head - s.tail) + 1
      rw [Nat.mod_eq_of_lt (by omega)]
      omega
  | comparingHead | comparingTail _ | exited =>
      rw [hpoint] at hgoing
      exact absurd rfl hgoing

/-- Left to itself the logger thread formats everything that was accepted. -/
theorem logger_catches_up (hinv : RingInv s) (hrunning : s.running = true)
    (hfew : s.accepted.length < sizeModulus) :
    ∃ steps last, run next s (List.replicate steps .logger) = some last ∧
      last.formatted = s.accepted := by
  induction hn : s.backlog using Nat.strongRecOn generalizing s with
  | _ n ih =>
      by_cases hbehind : s.formatted = s.accepted
      · exact ⟨0, s, rfl, hbehind⟩
      · obtain ⟨s', hnext, hless, hrunning', haccepted⟩ :=
          logger_progress hinv hrunning hfew hbehind
        have hfew' : s'.accepted.length < sizeModulus := haccepted ▸ hfew
        obtain ⟨steps, last, hrun, hlast⟩ :=
          ih s'.backlog (hn ▸ hless) (next_inv hinv hnext hfew') hrunning' hfew' rfl
        refine ⟨steps + 1, last, ?_, hlast.trans haccepted⟩
        exact run_cons_eq_some.mpr ⟨s', hnext, hrun⟩

/-- The slot a call writes in its next step. -/
def CallPoint.slot : CallPoint → Option Nat
  | .writingLevel head => some head
  | .writingTime head => some head
  | .writingMessage head _ => some head
  | _ => none

/-- The slot that a call writes is free. -/
theorem call_ok_free {call : LogCall} (h : CallOk s call) {index : Nat}
    (hslot : call.point.slot = some index) : s.Free index := by
  unfold CallOk at h
  cases hpoint : call.point <;> simp only [hpoint, CallPoint.slot, Option.some.injEq,
    reduceCtorEq] at h hslot
  · exact hslot ▸ h
  · exact hslot ▸ h.1
  · exact hslot ▸ h.1

/-- What has been formatted is the first part of what was accepted. -/
theorem formatted_are_first (hinv : RingInv s) : s.formatted <+: s.accepted := by
  have hok := hinv.logger_ok
  unfold LoggerOk at hok
  have htake {n : Nat} (h : s.formatted = s.accepted.take n) : s.formatted <+: s.accepted :=
    h ▸ List.take_prefix _ _
  cases hpoint : s.logger with
  | loadingHead tail =>
      simp only [hpoint] at hok
      exact htake hok.2
  | readingLevel tail =>
      simp only [hpoint] at hok
      exact htake hok.2.2
  | readingMessage tail level =>
      simp only [hpoint] at hok
      exact htake hok.2.1
  | readingTime tail level message =>
      simp only [hpoint] at hok
      exact htake hok.2.1
  | writing entry =>
      simp only [hpoint] at hok
      exact htake hok.1
  | retiring =>
      simp only [hpoint] at hok
      exact htake hok.2
  | testing | comparingHead | comparingTail _ | loadingTail | exited =>
      simp only [hpoint] at hok
      exact htake hok

/-- The ring is sound while the logger is running, for every size and every interleaving. No more
messages wait than there are slots, a call writes no slot of a message that waits, what was
formatted are the first accepted messages, and left to itself the logger thread formats the others;
a message is dropped for its level or because all slots were taken. -/
theorem ring_sound {bufferSize : Nat} (hsize : 0 < bufferSize) (level : LogLevel)
    (garbage : Nat → LogEntry) {labels : List LogLabel} {final : LogState}
    (hrun : run next (logInit bufferSize level garbage) labels = some final)
    (hrunning : final.running = true) (hfew : final.accepted.length < 2 ^ 64) :
    (final.head = final.accepted.length ∧ final.tail ≤ final.head ∧
        final.head - final.tail ≤ bufferSize) ∧
      (∀ call ∈ final.calls, ∀ index, call.point.slot = some index →
        ∀ i, final.tail ≤ i → i < final.head → i % bufferSize ≠ index % bufferSize) ∧
      (final.formatted <+: final.accepted ∧
        ∃ steps last, run next final (List.replicate steps .logger) = some last ∧
          last.formatted = final.accepted) ∧
      ∀ reason ∈ final.drops,
        (∃ dropped, reason = .belowLevel dropped ∧ dropped.value < level.value) ∨
          reason = .full bufferSize := by
  have hinv := run_inv (log_init_inv hsize level garbage) hrun hfew
  obtain ⟨-, rfl, rfl⟩ := run_keeps hrun
  refine ⟨⟨hinv.head_eq, hinv.tail_le, hinv.waiting_le⟩, ?_,
    ⟨formatted_are_first hinv, logger_catches_up hinv hrunning hfew⟩, ?_⟩
  · intro call hcall index hslot i hi hlt
    have hfree := call_ok_free (hinv.call_ok call hcall) hslot
    obtain ⟨rfl, hroom⟩ := hfree
    exact slot_ne hinv ⟨rfl, hroom⟩ hi hlt
  · intro reason hreason
    have hok := hinv.drop_ok reason hreason
    cases reason with
    | belowLevel dropped => exact Or.inl ⟨dropped, rfl, hok⟩
    | full waiting => exact Or.inr (congrArg Drop.full hok)
    | notRunning => exact Bool.noConfusion (hrunning.symm.trans hok)

/-- A ring with one slot: while the logger thread reads the first message, the second finds no
room. -/
def oneSlotRun : List LogLabel :=
  .call .warn [97] :: List.replicate 12 (LogLabel.producer 0 (.ofSec 5)) ++
    List.replicate 4 LogLabel.logger ++
      LogLabel.call .warn [98] :: List.replicate 7 (LogLabel.producer 1 (.ofSec 6))

/-- The first message is accepted, and the second dropped because the ring is full. -/
theorem one_slot_sound :
    ∃ final, run next (logInit 1 .info fun _ => ⟨.debug, [], ⟨0, 0⟩⟩) oneSlotRun = some final ∧
      final.running = true ∧ final.accepted = [⟨.warn, [97], ⟨5, 0⟩⟩] ∧
      final.drops = [.full 1] ∧ final.head - final.tail ≤ 1 ∧
      final.formatted <+: final.accepted := by
  obtain ⟨final, hrun, hrunning, haccepted, hdrops⟩ :
      ∃ final, run next (logInit 1 .info fun _ => ⟨.debug, [], ⟨0, 0⟩⟩) oneSlotRun = some final ∧
        final.running = true ∧ final.accepted = [⟨.warn, [97], ⟨5, 0⟩⟩] ∧
        final.drops = [.full 1] := exists_final (by decide +kernel)
  obtain ⟨hcount, -, hformatted, -⟩ :=
    ring_sound (by decide) .info _ hrun hrunning (by rw [haccepted]; decide)
  exact ⟨final, hrun, hrunning, haccepted, hdrops, hcount.2.2, hformatted.1⟩

end Emme.Log
