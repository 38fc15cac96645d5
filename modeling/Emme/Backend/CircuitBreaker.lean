import Emme.Lib.Execution
import Mathlib.Order.Basic
import Mathlib.Tactic.IntervalCases

/-!
# The circuit breaker

The circuit breaker of a backend pool, its three calls executed one at a time. The breaker keeps
two counters and the time of the last failure; what it is for is said about the calls made so
far, so a run is observed together with its visits: each call with the state it found and the
state it left behind.
-/

namespace Emme.Backend

open Execution

/-- `circuit_breaker_state_t`. -/
inductive BreakerState where
  | closed
  | opened
  | halfOpen
  deriving DecidableEq, Repr

/-- `CircuitBreakerConfig`. -/
structure CircuitBreakerConfig where
  enabled : Bool
  failureThreshold : Int32
  recoveryTimeoutSeconds : Int32
  deriving DecidableEq, Repr

/-- `circuit_breaker_t`, together with the pool's `circuit_breaker_enabled`. -/
structure CircuitBreaker where
  state : BreakerState
  failureCount : Int32
  successCount : Int32
  lastFailureTime : Int
  lastStateChange : Int
  totalOpens : Nat
  totalCloses : Nat
  config : CircuitBreakerConfig
  enabled : Bool
  deriving DecidableEq, Repr

/-- `backend_pool_init_circuit_breaker` at some time; `none` is its `-1`. -/
def initCircuitBreaker (config : CircuitBreakerConfig) (now : Int) : Option CircuitBreaker :=
  if config.enabled then
    some
      { state := .closed, failureCount := 0, successCount := 0, lastFailureTime := 0
        lastStateChange := now, totalOpens := 0, totalCloses := 0, config, enabled := true }
  else none

/-- `backend_pool_circuit_breaker_allow_request`. -/
def circuitBreakerAllowRequest (breaker : CircuitBreaker) (now : Int) : Bool × CircuitBreaker :=
  if !breaker.enabled then (true, breaker)
  else
    match breaker.state with
    | .closed => (true, breaker)
    | .opened =>
        if now - breaker.lastFailureTime ≥ breaker.config.recoveryTimeoutSeconds.toInt then
          (true, { breaker with state := .halfOpen, lastStateChange := now })
        else (false, breaker)
    | .halfOpen => (true, breaker)

/-- `backend_pool_circuit_breaker_record_success`. -/
def circuitBreakerRecordSuccess (breaker : CircuitBreaker) (now : Int) : CircuitBreaker :=
  if !breaker.enabled then breaker
  else
    match breaker.state with
    | .halfOpen =>
        let successes := breaker.successCount + 1
        if successes ≥ 2 then
          { breaker with
            state := .closed, failureCount := 0, successCount := 0, lastStateChange := now
            totalCloses := breaker.totalCloses + 1 }
        else { breaker with successCount := successes }
    | .closed => { breaker with failureCount := 0 }
    | .opened => breaker

/-- `backend_pool_circuit_breaker_record_failure`. -/
def circuitBreakerRecordFailure (breaker : CircuitBreaker) (now : Int) : CircuitBreaker :=
  if !breaker.enabled then breaker
  else if breaker.state = .closed ∨ breaker.state = .halfOpen then
    let failures := breaker.failureCount + 1
    let recorded := { breaker with failureCount := failures, lastFailureTime := now }
    if breaker.state = .halfOpen ∨ failures ≥ breaker.config.failureThreshold then
      { recorded with
        state := .opened, lastStateChange := now, totalOpens := breaker.totalOpens + 1 }
    else recorded
  else breaker

/-- A call on the breaker, with what its clock reading gives. -/
inductive BreakerCall where
  | allowRequest (now : Int)
  | recordSuccess (now : Int)
  | recordFailure (now : Int)
  deriving DecidableEq, Repr

/-- The clock reading of a call. -/
def BreakerCall.now : BreakerCall → Int
  | .allowRequest now | .recordSuccess now | .recordFailure now => now

/-- The call reports the outcome of a request. -/
def BreakerCall.IsReport : BreakerCall → Prop
  | .allowRequest _ => False
  | .recordSuccess _ | .recordFailure _ => True

/-- One call on the breaker; the two that return nothing are given the answer `true`. -/
def breakerStep (breaker : CircuitBreaker) : BreakerCall → Bool × CircuitBreaker
  | .allowRequest now => circuitBreakerAllowRequest breaker now
  | .recordSuccess now => (true, circuitBreakerRecordSuccess breaker now)
  | .recordFailure now => (true, circuitBreakerRecordFailure breaker now)

/-! ## What a call can do -/

section Effects

variable {breaker : CircuitBreaker} {now : Int}

/-- An open breaker takes no notice of a recorded outcome. -/
theorem report_opened (henabled : breaker.enabled = true) (hstate : breaker.state = .opened)
    {call : BreakerCall} (hcall : call.IsReport) : (breakerStep breaker call).2 = breaker := by
  cases call with
  | allowRequest now => exact absurd hcall id
  | recordSuccess now => simp [breakerStep, circuitBreakerRecordSuccess, henabled, hstate]
  | recordFailure now => simp [breakerStep, circuitBreakerRecordFailure, henabled, hstate]

/-- An open breaker lets a request pass exactly when the recovery time is over. -/
theorem allow_opened (henabled : breaker.enabled = true) (hstate : breaker.state = .opened) :
    circuitBreakerAllowRequest breaker now =
      if now - breaker.lastFailureTime ≥ breaker.config.recoveryTimeoutSeconds.toInt then
        (true, { breaker with state := .halfOpen, lastStateChange := now })
      else (false, breaker) := by
  simp [circuitBreakerAllowRequest, henabled, hstate]

/-- A breaker that is not open lets every request pass and stays as it is. -/
theorem allow_not_opened (hstate : breaker.state ≠ .opened) :
    circuitBreakerAllowRequest breaker now = (true, breaker) := by
  cases hcase : breaker.state with
  | opened => exact absurd hcase hstate
  | closed | halfOpen => simp [circuitBreakerAllowRequest, hcase]

/-- A refusal changes nothing. -/
theorem allow_refused (h : (circuitBreakerAllowRequest breaker now).1 = false) :
    circuitBreakerAllowRequest breaker now = (false, breaker) := by
  unfold circuitBreakerAllowRequest at h ⊢
  split at h
  · cases h
  · rename_i henabled
    rw [if_neg henabled]
    cases hstate : breaker.state with
    | closed | halfOpen =>
        rw [hstate] at h
        cases h
    | opened =>
        simp only [hstate] at h ⊢
        split at h
        · cases h
        · rename_i hearly
          exact if_neg hearly

/-- A success of a closed breaker clears the count of failures. -/
theorem success_closed (henabled : breaker.enabled = true) (hstate : breaker.state = .closed) :
    circuitBreakerRecordSuccess breaker now = { breaker with failureCount := 0 } := by
  simp [circuitBreakerRecordSuccess, henabled, hstate]

/-- The second success in a row closes a breaker that is half open. -/
theorem success_half_open (henabled : breaker.enabled = true)
    (hstate : breaker.state = .halfOpen) :
    circuitBreakerRecordSuccess breaker now =
      if breaker.successCount + 1 ≥ 2 then
        { breaker with
          state := .closed, failureCount := 0, successCount := 0, lastStateChange := now
          totalCloses := breaker.totalCloses + 1 }
      else { breaker with successCount := breaker.successCount + 1 } := by
  simp [circuitBreakerRecordSuccess, henabled, hstate]

/-- The failure that reaches the threshold opens a closed breaker. -/
theorem failure_closed (henabled : breaker.enabled = true) (hstate : breaker.state = .closed) :
    circuitBreakerRecordFailure breaker now =
      if breaker.failureCount + 1 ≥ breaker.config.failureThreshold then
        { breaker with
          state := .opened, failureCount := breaker.failureCount + 1, lastFailureTime := now
          lastStateChange := now, totalOpens := breaker.totalOpens + 1 }
      else { breaker with failureCount := breaker.failureCount + 1, lastFailureTime := now } := by
  simp [circuitBreakerRecordFailure, henabled, hstate]

/-- A failure opens a breaker that is half open. -/
theorem failure_half_open (henabled : breaker.enabled = true)
    (hstate : breaker.state = .halfOpen) :
    circuitBreakerRecordFailure breaker now =
      { breaker with
        state := .opened, failureCount := breaker.failureCount + 1, lastFailureTime := now
        lastStateChange := now, totalOpens := breaker.totalOpens + 1 } := by
  simp [circuitBreakerRecordFailure, henabled, hstate]

end Effects

/-! ## Runs and what they are about -/

/-- A call with the state it found and the state it left behind. -/
structure Visit where
  before : BreakerState
  call : BreakerCall
  after : BreakerState
  deriving DecidableEq, Repr

/-- The visit moves the breaker into the state. -/
def Visit.Enters (visit : Visit) (state : BreakerState) : Prop :=
  visit.after = state ∧ visit.before ≠ state

instance (visit : Visit) (state : BreakerState) : Decidable (visit.Enters state) :=
  inferInstanceAs (Decidable (_ ∧ _))

/-- The failures recorded since the later of entering CLOSED and the last recorded success; the
newest visit comes first. -/
def failuresSince : List Visit → Nat
  | [] => 0
  | visit :: earlier =>
      if visit.Enters .closed then 0
      else
        match visit.call with
        | .recordSuccess _ => 0
        | .recordFailure _ => failuresSince earlier + 1
        | .allowRequest _ => failuresSince earlier

/-- The time of the call that opened the breaker last. -/
def openedAt : List Visit → Option Int
  | [] => none
  | visit :: earlier => if visit.Enters .opened then some visit.call.now else openedAt earlier

/-- The successes recorded since the breaker entered HALF_OPEN last. -/
def successesSince : List Visit → Nat
  | [] => 0
  | visit :: earlier =>
      if visit.Enters .halfOpen then 0
      else
        match visit.call with
        | .recordSuccess _ => successesSince earlier + 1
        | .recordFailure _ | .allowRequest _ => successesSince earlier

/-- A breaker and the visits made to it, the newest first. -/
structure Observed where
  breaker : CircuitBreaker
  visits : List Visit
  deriving DecidableEq, Repr

/-- What a call on the breaker adds to the visits. -/
def visitOf (breaker : CircuitBreaker) (call : BreakerCall) : Visit where
  before := breaker.state
  call
  after := (breakerStep breaker call).2.state

/-- One call on an observed breaker. -/
def observe (seen : Observed) (call : BreakerCall) : Bool × Observed :=
  ((breakerStep seen.breaker call).1,
    { breaker := (breakerStep seen.breaker call).2
      visits := visitOf seen.breaker call :: seen.visits })

/-- A breaker just initialised, with no visits. -/
def Observed.fresh (breaker : CircuitBreaker) : Observed := { breaker, visits := [] }

/-- No call changes the configuration or disables the breaker. -/
theorem step_config (breaker : CircuitBreaker) (call : BreakerCall) :
    (breakerStep breaker call).2.config = breaker.config ∧
      (breakerStep breaker call).2.enabled = breaker.enabled := by
  cases call with
  | allowRequest now => grind [breakerStep, circuitBreakerAllowRequest]
  | recordSuccess now => grind [breakerStep, circuitBreakerRecordSuccess]
  | recordFailure now => grind [breakerStep, circuitBreakerRecordFailure]

/-- What the fields of the breaker mean. In CLOSED the failure counter is the number of failures
the threshold is about, in OPEN the time of the last failure is the time of opening. -/
structure Meaning (config : CircuitBreakerConfig) (seen : Observed) : Prop where
  enabled : seen.breaker.enabled = true
  configured : seen.breaker.config = config
  counted : seen.breaker.state = .closed →
    seen.breaker.failureCount.toInt = failuresSince seen.visits ∧
      (failuresSince seen.visits : Int) < max 1 config.failureThreshold.toInt
  dated : seen.breaker.state = .opened → openedAt seen.visits = some seen.breaker.lastFailureTime

/-- The counter does not overflow on its way to the threshold. -/
theorem to_int_succ {count threshold : Int32} {failures : Nat} (hcount : count.toInt = failures)
    (hlt : (failures : Int) < max 1 threshold.toInt) :
    (count + 1).toInt = failures + 1 := by
  have hbound : threshold.toInt < 2 ^ 31 := threshold.toInt_lt
  have hone : (1 : Int32).toInt = 1 := rfl
  rw [Int32.toInt_add, hcount, hone, Int.bmod_eq_of_le (by omega) (by omega)]

/-- In CLOSED the comparison with the threshold says whether the failure just recorded is the
one that makes the number of failures reach it. -/
theorem threshold_reached {count threshold : Int32} {failures : Nat}
    (hcount : count.toInt = failures) (hlt : (failures : Int) < max 1 threshold.toInt) :
    count + 1 ≥ threshold ↔ (failures : Int) + 1 = max 1 threshold.toInt := by
  rw [ge_iff_le, Int32.le_iff_toInt_le, to_int_succ hcount hlt]
  omega

variable {config : CircuitBreakerConfig} {seen : Observed}

/-- The failures are counted right when a call leaves the breaker in CLOSED. -/
theorem Meaning.counted_step (hmeaning : Meaning config seen) (call : BreakerCall)
    (hclosed : (breakerStep seen.breaker call).2.state = .closed) :
    (breakerStep seen.breaker call).2.failureCount.toInt =
        failuresSince (visitOf seen.breaker call :: seen.visits) ∧
      (failuresSince (visitOf seen.breaker call :: seen.visits) : Int) <
        max 1 config.failureThreshold.toInt := by
  have hpositive : 0 < max 1 config.failureThreshold.toInt := by omega
  have henabled := hmeaning.enabled
  have hconfig := hmeaning.configured
  cases hstate : seen.breaker.state with
  | closed =>
      obtain ⟨hcount, hlt⟩ := hmeaning.counted hstate
      simp only [failuresSince, Visit.Enters, visitOf, hstate]
      cases call with
      | allowRequest now =>
          simp [breakerStep, allow_not_opened, hstate, hcount, hlt]
      | recordSuccess now =>
          simp [breakerStep, success_closed henabled hstate, hpositive]
      | recordFailure now =>
          have hreached := threshold_reached hcount hlt
          have hsucc := to_int_succ hcount hlt
          simp only [breakerStep, failure_closed henabled hstate, hconfig] at hclosed ⊢
          split at hclosed
          next => simp at hclosed
          next hge =>
            simp only [if_neg hge, hsucc]
            grind
  | opened =>
      cases call with
      | allowRequest now =>
          simp only [breakerStep, allow_opened henabled hstate] at hclosed
          grind
      | recordSuccess now | recordFailure now =>
          rw [report_opened henabled hstate (by trivial), hstate] at hclosed
          exact absurd hclosed (by decide)
  | halfOpen =>
      -- A call that leaves HALF_OPEN for CLOSED starts the count anew.
      have hentered : failuresSince (visitOf seen.breaker call :: seen.visits) = 0 := by
        simp [failuresSince, Visit.Enters, visitOf, hclosed, hstate]
      rw [hentered]
      cases call with
      | allowRequest now =>
          simp [breakerStep, allow_not_opened, hstate] at hclosed
      | recordSuccess now =>
          simp only [breakerStep, success_half_open henabled hstate] at hclosed ⊢
          split at hclosed
          next hge => simp [if_pos hge]
          next => exact absurd (hstate.symm.trans hclosed) (by decide)
      | recordFailure now =>
          simp [breakerStep, failure_half_open henabled hstate] at hclosed

/-- The time of the last failure is the time of opening when a call leaves the breaker in
OPEN. -/
theorem Meaning.dated_step (hmeaning : Meaning config seen) (call : BreakerCall)
    (hopened : (breakerStep seen.breaker call).2.state = .opened) :
    openedAt (visitOf seen.breaker call :: seen.visits) =
      some (breakerStep seen.breaker call).2.lastFailureTime := by
  have henabled := hmeaning.enabled
  by_cases hstate : seen.breaker.state = .opened
  · have hdated := hmeaning.dated hstate
    have hstill : openedAt (visitOf seen.breaker call :: seen.visits) = openedAt seen.visits := by
      simp [openedAt, Visit.Enters, visitOf, hstate]
    rw [hstill, hdated]
    cases call with
    | allowRequest now =>
        simp only [breakerStep, allow_opened henabled hstate]
        split <;> rfl
    | recordSuccess now | recordFailure now => rw [report_opened henabled hstate (by trivial)]
  · -- Only a recorded failure opens the breaker, and it stores its own time.
    have hentered : openedAt (visitOf seen.breaker call :: seen.visits) = some call.now := by
      simp [openedAt, Visit.Enters, visitOf, hopened, hstate]
    rw [hentered]
    cases call with
    | allowRequest now =>
        simp [breakerStep, allow_not_opened, hstate] at hopened
    | recordSuccess now =>
        grind [breakerStep, circuitBreakerRecordSuccess]
    | recordFailure now =>
        grind [breakerStep, circuitBreakerRecordFailure, BreakerCall.now]

/-- Every call keeps the meaning of the fields. -/
theorem Meaning.step (hmeaning : Meaning config seen) (call : BreakerCall) :
    Meaning config (observe seen call).2 where
  enabled := (step_config seen.breaker call).2.trans hmeaning.enabled
  configured := (step_config seen.breaker call).1.trans hmeaning.configured
  counted := hmeaning.counted_step call
  dated := hmeaning.dated_step call

/-- The fields mean what they should after every run. -/
theorem meaning_after {created : Int} {breaker : CircuitBreaker}
    (hinit : initCircuitBreaker config created = some breaker) (calls : List BreakerCall) :
    Meaning config (after observe (.fresh breaker) calls) := by
  refine after_preserves (fun seen call hmeaning => hmeaning.step call) ?_ calls
  obtain ⟨-, hfresh⟩ := Option.ite_none_right_eq_some.mp hinit
  cases hfresh
  refine ⟨rfl, rfl, fun _ => ⟨rfl, ?_⟩, fun hopened => BreakerState.noConfusion hopened⟩
  simp only [Observed.fresh, failuresSince]
  omega

/-- Recorded outcomes leave an open breaker as it is, however many there are. -/
theorem reports_opened {breaker : CircuitBreaker} (henabled : breaker.enabled = true)
    (hstate : breaker.state = .opened) {reports : List BreakerCall}
    (hreports : ∀ call ∈ reports, call.IsReport) :
    after breakerStep breaker reports = breaker := by
  induction reports with
  | nil => rfl
  | cons call reports ih =>
      rw [after_cons, report_opened henabled hstate (hreports call List.mem_cons_self)]
      exact ih fun later hlater => hreports later (List.mem_cons_of_mem _ hlater)

/-- What the breaker does, in terms of the calls made so far. In CLOSED only the recorded failure
opens it that makes the failures since the later of entering CLOSED and the last recorded success
reach the threshold. Once open since `t`, outcomes change nothing, and a request passes, to
HALF_OPEN, exactly when `now - t` has reached the recovery time. In HALF_OPEN every failure opens it
again. -/
theorem breaker_exact (config : CircuitBreakerConfig) (created : Int) (breaker : CircuitBreaker)
    (hinit : initCircuitBreaker config created = some breaker) (calls : List BreakerCall) :
    let seen := after observe (.fresh breaker) calls
    (seen.breaker.state = .closed → ∀ call,
      ((breakerStep seen.breaker call).2.state = .opened ↔
        (∃ now, call = .recordFailure now) ∧
          (failuresSince seen.visits : Int) + 1 = max 1 config.failureThreshold.toInt) ∧
      ((breakerStep seen.breaker call).2.state ≠ .opened →
        (breakerStep seen.breaker call).2.state = .closed)) ∧
    (seen.breaker.state = .opened → ∃ t, openedAt seen.visits = some t ∧
      (∀ reports : List BreakerCall, (∀ call ∈ reports, call.IsReport) →
        after breakerStep seen.breaker reports = seen.breaker) ∧
      ∀ now,
        ((circuitBreakerAllowRequest seen.breaker now).1 = true ↔
          now - t ≥ config.recoveryTimeoutSeconds.toInt) ∧
        ((circuitBreakerAllowRequest seen.breaker now).2.state = .halfOpen ↔
          now - t ≥ config.recoveryTimeoutSeconds.toInt)) ∧
    (seen.breaker.state = .halfOpen → ∀ now,
      (circuitBreakerRecordFailure seen.breaker now).state = .opened ∧
        (circuitBreakerRecordFailure seen.breaker now).lastFailureTime = now ∧
        openedAt (observe seen (.recordFailure now)).2.visits = some now) := by
  intro seen
  have hmeaning : Meaning config seen := meaning_after hinit calls
  obtain ⟨henabled, hconfig, hcounted, hdated⟩ := hmeaning
  refine ⟨fun hstate call => ?_, fun hstate => ?_, fun hstate now => ?_⟩
  · obtain ⟨hcount, hlt⟩ := hcounted hstate
    have hreached := threshold_reached hcount hlt
    cases call with
    | allowRequest now =>
        simp [breakerStep, allow_not_opened, hstate]
    | recordSuccess now =>
        simp [breakerStep, success_closed henabled hstate, hstate]
    | recordFailure now =>
        simp only [breakerStep, failure_closed henabled hstate, hconfig, ← hreached]
        split <;> simp_all
  · refine ⟨_, hdated hstate, fun reports => reports_opened henabled hstate, fun now => ?_⟩
    rw [allow_opened henabled hstate, hconfig]
    split <;> simp_all
  · have hopens : circuitBreakerRecordFailure seen.breaker now = _ :=
      failure_half_open henabled hstate
    refine ⟨by rw [hopens], by rw [hopens], ?_⟩
    simp [observe, visitOf, openedAt, Visit.Enters, breakerStep, hopens, hstate, BreakerCall.now]

/-- A breaker of threshold 2 and recovery time 30 that has recorded a failure, a success and two
more failures: it opened at the second of these two. -/
theorem breaker_exact_reopening :
    ∃ t, openedAt (after observe
        (.fresh { state := .closed, failureCount := 0, successCount := 0, lastFailureTime := 0
                  lastStateChange := 5, totalOpens := 0, totalCloses := 0
                  config := ⟨true, 2, 30⟩, enabled := true })
        [.recordFailure 10, .recordSuccess 11, .recordFailure 12, .recordFailure 13]).visits =
      some t ∧ t = 13 := by
  obtain ⟨t, ht, -⟩ := (breaker_exact ⟨true, 2, 30⟩ 5 _ rfl
    [.recordFailure 10, .recordSuccess 11, .recordFailure 12, .recordFailure 13]).2.1 (by decide)
  refine ⟨t, ht, ?_⟩
  have hthirteen : some t = some 13 := ht.symm.trans (by decide)
  exact Option.some.inj hthirteen

/-! ## Closing again -/

/-- If the call moves the breaker from HALF_OPEN to CLOSED, two successes have been recorded
since it entered HALF_OPEN, the one of the call included. -/
def ClosesAfterTwo (seen : Observed) (call : BreakerCall) : Prop :=
  seen.breaker.state = .halfOpen → (observe seen call).2.breaker.state = .closed →
    2 ≤ successesSince (observe seen call).2.visits

instance (seen : Observed) (call : BreakerCall) : Decidable (ClosesAfterTwo seen call) :=
  inferInstanceAs (Decidable (_ → _ → _))

/-- A request that passes an open breaker, and so starts a recovery, finds no success counted. -/
def StartsUncounted (seen : Observed) : BreakerCall → Prop
  | .allowRequest now =>
      seen.breaker.state = .opened →
        now - seen.breaker.lastFailureTime ≥ seen.breaker.config.recoveryTimeoutSeconds.toInt →
          seen.breaker.successCount = 0
  | .recordSuccess _ | .recordFailure _ => True

instance (seen : Observed) : (call : BreakerCall) → Decidable (StartsUncounted seen call)
  | .allowRequest _ => inferInstanceAs (Decidable (_ → _ → _))
  | .recordSuccess _ | .recordFailure _ => inferInstanceAs (Decidable True)

/-- In HALF_OPEN the success counter is the number of successes recorded in this recovery, and it
has not reached two. -/
structure Recovering (seen : Observed) : Prop where
  enabled : seen.breaker.enabled = true
  counted : seen.breaker.state = .halfOpen →
    seen.breaker.successCount = Int32.ofNat (successesSince seen.visits) ∧
      successesSince seen.visits < 2

/-- A recorded success in HALF_OPEN closes the breaker exactly when it is the second one. -/
theorem Recovering.closes_iff (hrecovering : Recovering seen)
    (hstate : seen.breaker.state = .halfOpen) :
    seen.breaker.successCount + 1 ≥ 2 ↔ successesSince seen.visits = 1 := by
  obtain ⟨hcount, hlt⟩ := hrecovering.counted hstate
  rw [hcount]
  interval_cases successesSince seen.visits <;> decide

/-- Every admitted call keeps the success counter right. -/
theorem Recovering.step (hrecovering : Recovering seen) {call : BreakerCall}
    (hadmitted : StartsUncounted seen call) : Recovering (observe seen call).2 := by
  have henabled := hrecovering.enabled
  refine ⟨(step_config seen.breaker call).2.trans henabled, fun hhalf => ?_⟩
  simp only [observe] at hhalf ⊢
  cases hstate : seen.breaker.state with
  | closed =>
      cases call with
      | allowRequest now => simp [breakerStep, allow_not_opened, hstate] at hhalf
      | recordSuccess now => simp [breakerStep, success_closed henabled hstate, hstate] at hhalf
      | recordFailure now =>
          simp only [breakerStep, failure_closed henabled hstate] at hhalf
          grind
  | opened =>
      -- Only a request that passes leads on, and the recovery it starts has counted nothing yet.
      have hentered : successesSince (visitOf seen.breaker call :: seen.visits) = 0 := by
        simp [successesSince, Visit.Enters, visitOf, hhalf, hstate]
      rw [hentered]
      cases call with
      | allowRequest now =>
          simp only [breakerStep, allow_opened henabled hstate] at hhalf ⊢
          split at hhalf
          next hpasses =>
            rw [if_pos hpasses]
            exact ⟨hadmitted hstate hpasses, by decide⟩
          next => exact absurd (hstate.symm.trans hhalf) (by decide)
      | recordSuccess now | recordFailure now =>
          rw [report_opened henabled hstate (by trivial), hstate] at hhalf
          exact absurd hhalf (by decide)
  | halfOpen =>
      have hcounted := hrecovering.counted hstate
      have hstays : ¬ (visitOf seen.breaker call).Enters .halfOpen := by
        simp [Visit.Enters, visitOf, hstate]
      rw [successesSince, if_neg hstays]
      cases call with
      | allowRequest now => simpa [breakerStep, allow_not_opened, hstate, visitOf] using hcounted
      | recordSuccess now =>
          have hcloses := hrecovering.closes_iff hstate
          simp only [breakerStep, success_half_open henabled hstate, visitOf] at hhalf ⊢
          split at hhalf
          next => exact BreakerState.noConfusion hhalf
          next hfirst =>
            have hnone : successesSince seen.visits = 0 := by
              have hnot := mt hcloses.mpr hfirst
              have hlt := hcounted.2
              omega
            rw [if_neg hfirst, hnone]
            exact ⟨by rw [hcounted.1, hnone]; rfl, by decide⟩
      | recordFailure now => simp [breakerStep, failure_half_open henabled hstate] at hhalf

/-- Over every run in which each recovery starts with no success counted, the breaker closes
only after two successes recorded in the recovery it ends. -/
theorem closes_after_two (config : CircuitBreakerConfig) (created : Int)
    (breaker : CircuitBreaker) (hinit : initCircuitBreaker config created = some breaker)
    (calls : List BreakerCall) (hrun : Along observe StartsUncounted (.fresh breaker) calls)
    (call : BreakerCall) : ClosesAfterTwo (after observe (.fresh breaker) calls) call := by
  have hstart : Recovering (.fresh breaker) := by
    obtain ⟨-, hfresh⟩ := Option.ite_none_right_eq_some.mp hinit
    cases hfresh
    exact ⟨rfl, fun hhalf => BreakerState.noConfusion hhalf⟩
  have hrecovering : Recovering (after observe (.fresh breaker) calls) :=
    after_invariant (fun _ _ hinv hadmitted => hinv.step hadmitted) hstart hrun
  intro hstate hclosed
  have henabled := hrecovering.enabled
  generalize after observe (.fresh breaker) calls = seen at *
  simp only [observe] at hclosed ⊢
  cases call with
  | allowRequest now => simp [breakerStep, allow_not_opened, hstate] at hclosed
  | recordFailure now => simp [breakerStep, failure_half_open henabled hstate] at hclosed
  | recordSuccess now =>
      have hcloses := hrecovering.closes_iff hstate
      simp only [breakerStep, success_half_open henabled hstate] at hclosed
      split at hclosed
      next hsecond =>
        have hone := hcloses.mp hsecond
        simp [successesSince, Visit.Enters, visitOf, hstate, hone]
      next => exact absurd (hstate.symm.trans hclosed) (by decide)

/-- A recovery that ends with its second success. -/
theorem closes_after_two_recovery :
    ClosesAfterTwo
      (after observe
        (.fresh { state := .closed, failureCount := 0, successCount := 0, lastFailureTime := 0
                  lastStateChange := 5, totalOpens := 0, totalCloses := 0
                  config := ⟨true, 1, 30⟩, enabled := true })
        [.recordFailure 10, .allowRequest 40, .recordSuccess 41]) (.recordSuccess 42) :=
  closes_after_two ⟨true, 1, 30⟩ 5 _ rfl
    [.recordFailure 10, .allowRequest 40, .recordSuccess 41] (by decide) (.recordSuccess 42)

/-- A success counted in a recovery that failed is still counted in the next one: the breaker
closes after a single success. -/
theorem closes_after_one :
    ∃ breaker, initCircuitBreaker ⟨true, 1, 30⟩ 5 = some breaker ∧
      ¬ ClosesAfterTwo
        (after observe (.fresh breaker)
          [.recordFailure 10, .allowRequest 40, .recordSuccess 41, .recordFailure 42,
            .allowRequest 72]) (.recordSuccess 73) :=
  ⟨_, rfl, by decide⟩

end Emme.Backend
