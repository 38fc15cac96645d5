import Emme.Log.Delivery

/-!
# Shutting down the logger

`log_shutdown` clears `logger_running`, joins the logger thread and frees the ring. `log_message`
looks at the flag once, before it takes the lock, so a call that waited publishes into a ring that
nobody empties or writes memory that has been freed (`late_call_lost`). If no call is under way when
the flag is cleared, this cannot happen (`shutdown_complete`).
-/

namespace Emme.Log

open CString Execution Threads

/-- The call has found the logger running, and is not done with the ring. -/
def CallPoint.inside : CallPoint → Bool
  | .entering => false
  | .checking => false
  | .unlocking => false
  | .returned => false
  | _ => true

/-- When `log_shutdown` clears the flag, no call is inside. -/
def QuietStop (s : LogState) (label : LogLabel) : Prop :=
  label = .shutdown ∧ s.shutdown = .notCalled → ∀ call ∈ s.calls, call.point.inside = false

instance (s : LogState) (label : LogLabel) : Decidable (QuietStop s label) :=
  inferInstanceAs (Decidable (_ → _))

/-- `pthread_join` has returned. -/
def ShutdownPoint.joined : ShutdownPoint → Bool
  | .notCalled => false
  | .joining => false
  | _ => true

/-- What holds at the end: once the flag is cleared no call is inside, so the logger thread sees
the true `log_head` and ends with an empty ring, and it is only then that the ring is freed. -/
structure StopInv (s : LogState) : Prop where
  running_eq : s.shutdown = .notCalled → s.running = true
  quiet : s.running = false → ∀ call ∈ s.calls, call.point.inside = false
  compared : ∀ head, s.logger = .comparingTail head → head = s.head
  emptied : s.logger = .exited → s.tail = s.head
  joined : s.shutdown.joined = true → s.logger = .exited
  live : s.shutdown.joined = false → s.allocated = true
  untouched : s.wroteFreed = false
  faultless : ∀ call ∈ s.calls, call.point ≠ .faulting
  whole : s.crashed = false

/-- It holds when the logger has been started. -/
theorem log_init_stop_inv (bufferSize : Nat) (level : LogLevel) (garbage : Nat → LogEntry) :
    StopInv (logInit bufferSize level garbage) where
  running_eq := fun _ => rfl
  quiet := fun h => by cases h
  compared := fun _ h => by cases h
  emptied := fun h => by cases h
  joined := fun h => by cases h
  live := fun _ => rfl
  untouched := rfl
  faultless := fun _ hcall => by cases hcall
  whole := rfl

section Steps

variable {s s' : LogState}

/-- The step does no harm: no freed slot is written, and no slot is looked for in a null pointer. -/
structure Harmless (s s' : LogState) (c : Nat) (call : LogCall) (allowed : CallPoint → Prop) :
    Prop where
  untouched : s'.wroteFreed = s.wroteFreed
  whole : s'.crashed = s.crashed
  calls : ∃ point, allowed point ∧ s'.calls = s.calls.set c { call with point }

variable {c : Nat} {call : LogCall} {now : Timespec}

/-- As long as there is a ring, a call finds its slot there. -/
theorem step_call_harmless (h : stepCall s c call now = some s') (hlive : s.allocated = true)
    (hbuffer : s.logBuffer = true) (hpoint : call.point ≠ .faulting) :
    Harmless s s' c call (· ≠ .faulting) := by
  unfold stepCall at h
  split at h
  case h_1 | h_2 | h_3 | h_6 => split at h <;> cases h <;> exact ⟨rfl, rfl, _, by simp, rfl⟩
  case h_4 =>
      split at h
      · cases h
        exact ⟨rfl, rfl, _, by simp, rfl⟩
      · cases h
  case h_7 =>
      rw [if_pos hbuffer] at h
      cases h
      exact ⟨rfl, rfl, _, by simp, rfl⟩
  case h_8 | h_9 | h_10 =>
      cases h
      exact ⟨by simp [LogState.goto, LogState.write, hlive], rfl, _, by simp, rfl⟩
  case h_5 | h_11 | h_12 =>
      cases h
      exact ⟨rfl, rfl, _, by simp, rfl⟩
  case h_13 => cases h
  case h_14 hfault => exact absurd hfault hpoint

/-- A call that is outside while the logger is stopped stays outside, and leaves the ring
alone. -/
theorem step_call_outside (h : stepCall s c call now = some s') (hstopped : s.running = false)
    (houtside : call.point.inside = false) :
    s'.head = s.head ∧ Harmless s s' c call (·.inside = false) := by
  cases hpoint : call.point with
  | entering =>
      simp only [stepCall, hpoint] at h
      split at h <;> cases h
      · exact ⟨rfl, rfl, rfl, .checking, rfl, rfl⟩
      · exact ⟨rfl, rfl, rfl, .returned, rfl, rfl⟩
  | checking =>
      simp only [stepCall, hpoint, hstopped, Bool.false_eq_true, if_false] at h
      cases h
      exact ⟨rfl, rfl, rfl, .returned, rfl, rfl⟩
  | unlocking =>
      simp only [stepCall, hpoint] at h
      cases h
      exact ⟨rfl, rfl, rfl, .returned, rfl, rfl⟩
  | returned =>
      simp only [stepCall, hpoint] at h
      cases h
  | filtering | locking | loadingHead | loadingTail _ | pointing _ | writingLevel _
  | writingTime _ | writingMessage _ _ | publishing _ _ | faulting =>
      rw [hpoint] at houtside
      cases houtside

/-- While the logger runs, the ring has not been freed. -/
theorem StopInv.live_running (hring : RingInv s) (hinv : StopInv s) (hrunning : s.running = true) :
    s.allocated = true := by
  refine hinv.live ?_
  cases hpoint : s.shutdown with
  | notCalled => rfl
  | joining => rfl
  | freeing | clearing | closing | returned =>
      have hstopped := hring.shutdown_ok (by rw [hpoint]; simp)
      exact Bool.noConfusion (hrunning.symm.trans hstopped)

/-- No step of a call does harm. -/
theorem StopInv.harmless (hring : RingInv s) (hinv : StopInv s) (hc : s.calls[c]? = some call)
    (h : stepCall s c call now = some s') : Harmless s s' c call (· ≠ .faulting) := by
  have hmem := List.mem_of_getElem? hc
  cases hcase : s.running with
  | true =>
      exact step_call_harmless h (hinv.live_running hring hcase) (hring.open_ok hcase)
        (hinv.faultless call hmem)
  | false =>
      obtain ⟨-, huntouched, hwhole, point, hpoint, hcalls⟩ :=
        step_call_outside h hcase (hinv.quiet hcase call hmem)
      refine ⟨huntouched, hwhole, point, ?_, hcalls⟩
      rintro rfl
      cases hpoint

/-- Every step of a call keeps what holds at the end. -/
theorem step_call_stop_inv (hring : RingInv s) (hinv : StopInv s) (hc : s.calls[c]? = some call)
    (h : stepCall s c call now = some s') : StopInv s' := by
  have hframe := step_call_frame h
  obtain ⟨huntouched, hwhole, point, hpoint, hcalls⟩ := hinv.harmless hring hc h
  -- while the logger runs nothing is claimed of the calls, and afterwards none does anything
  have hring_unchanged : s.running = false → s'.head = s.head ∧
      ∀ call' ∈ s'.calls, call'.point.inside = false := by
    intro hstopped
    have hquiet := hinv.quiet hstopped
    obtain ⟨hhead, -, -, point, hpoint, hcalls⟩ :=
      step_call_outside h hstopped (hquiet call (List.mem_of_getElem? hc))
    refine ⟨hhead, fun call' hcall' => ?_⟩
    rw [hcalls] at hcall'
    rcases List.mem_or_eq_of_mem_set hcall' with hcall' | rfl
    · exact hquiet call' hcall'
    · exact hpoint
  have hstopping : s.logger.stopping = true → s'.head = s.head := fun hstop =>
    (hring_unchanged (hring.stopping_ok hstop)).1
  refine ⟨?_, ?_, ?_, ?_, ?_, ?_, huntouched.trans hinv.untouched, ?_,
    hwhole.trans hinv.whole⟩
  · rw [hframe.shutdown, hframe.running]
    exact hinv.running_eq
  · rw [hframe.running]
    exact fun hstopped => (hring_unchanged hstopped).2
  · intro head hhead
    rw [hframe.logger] at hhead
    rw [hstopping (by rw [hhead]; rfl)]
    exact hinv.compared head hhead
  · intro hexited
    rw [hframe.logger] at hexited
    rw [hframe.tail, hstopping (by rw [hexited]; rfl)]
    exact hinv.emptied hexited
  · rw [hframe.shutdown, hframe.logger]
    exact hinv.joined
  · rw [hframe.shutdown, hframe.allocated]
    exact hinv.live
  · intro call' hcall'
    rw [hcalls] at hcall'
    rcases List.mem_or_eq_of_mem_set hcall' with hcall' | rfl
    · exact hinv.faultless call' hcall'
    · exact hpoint

/-- What a step of the logger thread leaves alone. -/
theorem step_logger_frame (h : stepLogger s = some s') :
    s'.running = s.running ∧ s'.shutdown = s.shutdown ∧ s'.allocated = s.allocated ∧
      s'.calls = s.calls ∧ s'.wroteFreed = s.wroteFreed ∧ s'.crashed = s.crashed := by
  unfold stepLogger at h
  split at h <;> cases h <;> exact ⟨rfl, rfl, rfl, rfl, rfl, rfl⟩

/-- The logger thread compares the head it finds, and ends where it finds it reached. -/
theorem step_logger_ends (hinv : StopInv s) (h : stepLogger s = some s') :
    (∀ head, s'.logger = .comparingTail head → head = s'.head) ∧
      (s'.logger = .exited → s'.tail = s'.head) := by
  unfold stepLogger at h
  split at h
  case h_1 => cases h; dsimp only; split <;> simp
  case h_2 => cases h; simp
  case h_3 head hpoint =>
      cases h
      have hhead := hinv.compared head hpoint
      dsimp only
      split
      · rename_i hempty
        exact ⟨by simp, fun _ => hempty.symm.trans hhead⟩
      · simp
  case h_5 => cases h; dsimp only; split <;> simp
  case h_4 | h_6 | h_7 | h_8 | h_9 | h_10 => cases h; simp
  case h_11 => cases h

/-- Every step of the logger thread keeps what holds at the end. -/
theorem step_logger_stop_inv (hinv : StopInv s) (h : stepLogger s = some s') : StopInv s' := by
  obtain ⟨hrunning, hshutdown, hallocated, hcalls, hwrote, hcrashed⟩ := step_logger_frame h
  obtain ⟨hcompared, hemptied⟩ := step_logger_ends hinv h
  refine ⟨?_, ?_, hcompared, hemptied, ?_, ?_, hwrote.trans hinv.untouched,
    hcalls ▸ hinv.faultless, hcrashed.trans hinv.whole⟩
  · rw [hshutdown, hrunning]
    exact hinv.running_eq
  · rw [hrunning, hcalls]
    exact hinv.quiet
  · rw [hshutdown]
    intro hjoined
    rw [stepLogger, hinv.joined hjoined] at h
    cases h
  · rw [hshutdown, hallocated]
    exact hinv.live

/-- Every step of `log_shutdown` does so, if no call is inside when it starts. -/
theorem step_shutdown_stop_inv (hinv : StopInv s) (hquiet : QuietStop s .shutdown)
    (h : stepShutdown s = some s') : StopInv s' := by
  unfold stepShutdown at h
  split at h
  case h_1 hpoint =>
      cases h
      exact
        { hinv with
          running_eq := fun hcalled => by cases hcalled
          quiet := fun _ => hquiet ⟨rfl, hpoint⟩
          joined := fun hjoined => by cases hjoined
          live := fun _ => hinv.live (by rw [hpoint]; rfl) }
  case h_2 hpoint =>
      split at h
      · rename_i hexited
        cases h
        exact
          { hinv with
            running_eq := fun hcalled => by cases hcalled
            joined := fun _ => hexited
            live := fun hjoined => by cases hjoined }
      · cases h
  case h_3 hpoint =>
      have hexited : s.logger = .exited := hinv.joined (by rw [hpoint]; rfl)
      split at h <;> cases h <;>
        exact
          { hinv with
            running_eq := fun hcalled => by cases hcalled
            joined := fun _ => hexited
            live := fun hjoined => by cases hjoined }
  case h_4 hpoint | h_5 hpoint =>
      have hexited : s.logger = .exited := hinv.joined (by rw [hpoint]; rfl)
      cases h
      exact
        { hinv with
          running_eq := fun hcalled => by cases hcalled
          joined := fun _ => hexited
          live := fun hjoined => by cases hjoined }
  case h_6 => cases h

/-- A new call is outside. -/
theorem StopInv.new_call (hinv : StopInv s) (level : LogLevel) (message : Bytes) :
    StopInv { s with calls := s.calls ++ [⟨level, message, .entering⟩] } :=
  { hinv with
    quiet := by
      intro hstopped call hcall
      rcases List.mem_append.mp hcall with hcall | hcall
      · exact hinv.quiet hstopped call hcall
      · rw [List.mem_singleton.mp hcall]
        rfl
    faultless := by
      intro call hcall
      rcases List.mem_append.mp hcall with hcall | hcall
      · exact hinv.faultless call hcall
      · rw [List.mem_singleton.mp hcall]
        simp }

/-- Every transition keeps what holds at the end. -/
theorem next_stop_inv {label : LogLabel} (hring : RingInv s) (hinv : StopInv s)
    (hquiet : QuietStop s label) (h : next s label = some s') : StopInv s' := by
  obtain ⟨-, h⟩ := next_eq_some.mp h
  cases label with
  | call level message =>
      cases h
      exact hinv.new_call level _
  | producer c now =>
      simp only [step] at h
      split at h
      · rename_i call hc
        exact step_call_stop_inv hring hinv hc h
      · cases h
  | logger => exact step_logger_stop_inv hinv h
  | shutdown => exact step_shutdown_stop_inv hinv hquiet h

end Steps

/-- After `log_shutdown` the ring has been emptied. -/
theorem formatted_eq_accepted {s : LogState} (hring : RingInv s) (hstop : StopInv s)
    (hreturned : s.shutdown = .returned) : s.formatted = s.accepted := by
  have hexited : s.logger = .exited := hstop.joined (by rw [hreturned]; rfl)
  have hformatted := hring.logger_ok
  simp only [LoggerOk, hexited] at hformatted
  rw [hformatted, hstop.emptied hexited, hring.head_eq, List.take_length]

/-- If no call is inside when the flag is cleared, and fewer than `2 ^ 64` messages are accepted,
then everything that was accepted is formatted when `log_shutdown` has returned, and no call
writes the ring after it was freed, or writes through the pointer after it was cleared. -/
theorem shutdown_complete {bufferSize : Nat} (hsize : 0 < bufferSize) (level : LogLevel)
    (garbage : Nat → LogEntry) {labels : List LogLabel} {final : LogState}
    (hquiet : Throughout next QuietStop (logInit bufferSize level garbage) labels)
    (hrun : run next (logInit bufferSize level garbage) labels = some final)
    (hfew : final.accepted.length < 2 ^ 64) :
    (final.shutdown = .returned → final.formatted = final.accepted) ∧
      final.wroteFreed = false ∧ final.crashed = false := by
  have hstep : ∀ state label following,
      (state.accepted.length < sizeModulus → RingInv state ∧ StopInv state) →
      QuietStop state label → next state label = some following →
      following.accepted.length < sizeModulus → RingInv following ∧ StopInv following := by
    intro state label following hstate hlabel hnext hfollowing
    have hless := Nat.lt_of_le_of_lt (next_keeps hnext).1.length_le hfollowing
    obtain ⟨hring, hstop⟩ := hstate hless
    exact ⟨next_inv hring hnext hfollowing, next_stop_inv hring hstop hlabel hnext⟩
  obtain ⟨hring, hstop⟩ := run_invariant hstep
    (fun _ => ⟨log_init_inv hsize level garbage, log_init_stop_inv bufferSize level garbage⟩)
    hquiet hrun hfew
  exact ⟨formatted_eq_accepted hring hstop, hstop.untouched, hstop.whole⟩

/-- A message that is accepted before the flag is cleared is still formatted. -/
def quietRun : List LogLabel :=
  .call .warn [97] :: List.replicate 11 (LogLabel.producer 0 (.ofSec 5)) ++
    LogLabel.shutdown :: List.replicate 13 LogLabel.logger ++ List.replicate 4 LogLabel.shutdown

/-- The message of a call that was done before the shutdown, with the logger thread behind. -/
theorem quiet_run_complete :
    Throughout next QuietStop (logInit 1 .info fun _ => ⟨.debug, [], ⟨0, 0⟩⟩) quietRun ∧
      ∃ final, run next (logInit 1 .info fun _ => ⟨.debug, [], ⟨0, 0⟩⟩) quietRun = some final ∧
        final.shutdown = .returned ∧ final.accepted = [⟨.warn, [97], ⟨5, 0⟩⟩] ∧
        final.formatted = final.accepted := by
  have hquiet : Throughout next QuietStop (logInit 1 .info fun _ => ⟨.debug, [], ⟨0, 0⟩⟩)
      quietRun := by decide +kernel
  obtain ⟨final, hrun, hreturned, haccepted⟩ :
      ∃ final, run next (logInit 1 .info fun _ => ⟨.debug, [], ⟨0, 0⟩⟩) quietRun = some final ∧
        final.shutdown = .returned ∧ final.accepted = [⟨.warn, [97], ⟨5, 0⟩⟩] :=
    exists_final (by decide +kernel)
  exact ⟨hquiet, final, hrun, hreturned, haccepted,
    (shutdown_complete (by decide) .info _ hquiet hrun (by rw [haccepted]; decide)).1 hreturned⟩

/-- A call that goes on after `log_shutdown` has returned. In the first run it has its pointer from
before: it writes freed memory, and its message is accepted and never formatted. In the second it
takes the pointer afterwards, and the program crashes. -/
theorem late_call_lost :
    (∃ final, run next (logInit 1 .info fun _ => ⟨.debug, [], ⟨0, 0⟩⟩)
        (.call .warn [97] :: List.replicate 7 (LogLabel.producer 0 ⟨5, 0⟩) ++
          LogLabel.shutdown :: List.replicate 3 LogLabel.logger ++
            List.replicate 4 LogLabel.shutdown ++
              List.replicate 5 (LogLabel.producer 0 ⟨6, 0⟩)) = some final ∧
      final.shutdown = .returned ∧ final.accepted = [⟨.warn, [97], ⟨6, 0⟩⟩] ∧
      final.formatted = [] ∧ final.wroteFreed = true) ∧
    ∃ final, run next (logInit 1 .info fun _ => ⟨.debug, [], ⟨0, 0⟩⟩)
        (.call .warn [97] :: List.replicate 2 (LogLabel.producer 0 ⟨5, 0⟩) ++
          LogLabel.shutdown :: List.replicate 3 LogLabel.logger ++
            List.replicate 4 LogLabel.shutdown ++
              List.replicate 6 (LogLabel.producer 0 ⟨6, 0⟩)) = some final ∧
      final.shutdown = .returned ∧ final.accepted = [] ∧ final.crashed = true :=
  ⟨exists_final (by decide +kernel), exists_final (by decide +kernel)⟩

end Emme.Log
