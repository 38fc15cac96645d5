import Emme.Lib.Execution
import Emme.Backend.Pool
import Mathlib.Data.List.Infix

/-!
# The health checker

The health check thread and its two handlers. Each sets the health only if its own counter and the
one it has just reset are both at their thresholds; `verdicts_kept_iff` says for which outcomes the
health is what the thresholds are meant to give.
-/

namespace Emme.Backend

open Execution

/-! ## The checker -/

/-- The thresholds of `HealthCheckConfig`. -/
structure HealthCheckConfig where
  healthyThreshold : Int32
  unhealthyThreshold : Int32
  deriving DecidableEq, Repr

/-- `health_checker_t`. -/
structure HealthChecker where
  config : HealthCheckConfig
  consecutiveFailures : Int32
  consecutiveSuccesses : Int32
  health : Health
  lastCheckTime : Int
  totalChecks : Nat
  failedChecks : Nat
  deriving DecidableEq, Repr

/-- The checker as `health_checker_start` sets it up. -/
def healthCheckerStart (config : HealthCheckConfig) : HealthChecker where
  config
  consecutiveFailures := 0
  consecutiveSuccesses := 0
  health := .unknown
  lastCheckTime := 0
  totalChecks := 0
  failedChecks := 0

/-- `handle_health_check_success`. -/
def handleHealthCheckSuccess (checker : HealthChecker) (conn : BackendConn) :
    HealthChecker × BackendConn :=
  let prevFailures := checker.consecutiveFailures
  let successes := checker.consecutiveSuccesses + 1
  ({ checker with
      consecutiveFailures := 0
      consecutiveSuccesses := successes
      health :=
        if prevFailures ≥ checker.config.unhealthyThreshold ∧
            successes ≥ checker.config.healthyThreshold then .healthy
        else checker.health },
    backendPoolMarkSuccess conn)

/-- `handle_health_check_failure`. -/
def handleHealthCheckFailure (checker : HealthChecker) (conn : BackendConn) :
    HealthChecker × BackendConn :=
  let prevSuccesses := checker.consecutiveSuccesses
  let failures := checker.consecutiveFailures + 1
  ({ checker with
      consecutiveSuccesses := 0
      consecutiveFailures := failures
      health :=
        if prevSuccesses ≥ checker.config.healthyThreshold ∧
            failures ≥ checker.config.unhealthyThreshold then .unhealthy
        else checker.health },
    backendPoolMarkFailure conn)

/-- One turn of `health_check_thread`: the connection it acquired, if it did, with the outcome of
`perform_health_check` on it, and the time at its end. -/
structure HealthCheck where
  acquired : Option (BackendConn × Bool)
  now : Int
  deriving DecidableEq, Repr

/-- The loop body of `health_check_thread`, with the connection it releases. -/
def healthCheckTurn (checker : HealthChecker) (check : HealthCheck) :
    Option BackendConn × HealthChecker :=
  match check.acquired with
  | none =>
      (none,
        { checker with
          consecutiveFailures := checker.consecutiveFailures + 1
          consecutiveSuccesses := 0
          health := .unhealthy
          failedChecks := checker.failedChecks + 1
          totalChecks := checker.totalChecks + 1
          lastCheckTime := check.now })
  | some (conn, success) =>
      let (handled, marked) :=
        if success then handleHealthCheckSuccess checker conn
        else handleHealthCheckFailure checker conn
      (some marked,
        { handled with
          totalChecks := handled.totalChecks + 1
          failedChecks := if success then handled.failedChecks else handled.failedChecks + 1
          lastCheckTime := check.now })

/-! ## Both directions at once -/

/-- The counter of successes, or of failures. -/
def HealthChecker.streak (checker : HealthChecker) (success : Bool) : Int32 :=
  if success then checker.consecutiveSuccesses else checker.consecutiveFailures

/-- The threshold for successes, or for failures. -/
def HealthCheckConfig.threshold (config : HealthCheckConfig) (success : Bool) : Int32 :=
  if success then config.healthyThreshold else config.unhealthyThreshold

/-- What enough successes, or failures, in a row are meant to say. -/
def verdict (success : Bool) : Health := if success then .healthy else .unhealthy

/-- What a turn with a connection does to the counters and the health. -/
theorem turn_acquired (checker : HealthChecker) (conn : BackendConn) (success : Bool)
    (now : Int) :
    let turned := (healthCheckTurn checker ⟨some (conn, success), now⟩).2
    turned.config = checker.config ∧
      turned.streak success = checker.streak success + 1 ∧
      turned.streak (!success) = 0 ∧
      turned.health =
        if checker.streak (!success) ≥ checker.config.threshold (!success) ∧
            checker.streak success + 1 ≥ checker.config.threshold success then verdict success
        else checker.health := by
  cases success <;> exact ⟨rfl, rfl, rfl, rfl⟩

/-! ## Outcomes in a row -/

/-- The number of times the outcome occurs at the end of the list without another one. -/
def trailing (success : Bool) (outcomes : List Bool) : Nat :=
  (outcomes.reverse.takeWhile (· == success)).length

/-- One more outcome of the same kind lengthens the row. -/
theorem trailing_concat_self (success : Bool) (outcomes : List Bool) :
    trailing success (outcomes ++ [success]) = trailing success outcomes + 1 := by
  simp [trailing]

/-- An outcome of the other kind ends the row. -/
theorem trailing_concat_not (success : Bool) (outcomes : List Bool) :
    trailing (!success) (outcomes ++ [success]) = 0 := by
  cases success <;> simp [trailing]

/-- The list begins with `count` equal outcomes. -/
theorem replicate_start_iff {count : Nat} {success : Bool} {outcomes : List Bool} :
    List.replicate count success <+: outcomes ↔
      count ≤ (outcomes.takeWhile (· == success)).length := by
  induction outcomes generalizing count with
  | nil => cases count <;> simp [List.replicate_succ]
  | cons outcome outcomes ih =>
      cases count with
      | zero => simp
      | succ count =>
          rw [List.replicate_succ, List.cons_prefix_cons, ih]
          by_cases hsame : outcome = success
          · simp [hsame]
          · simp [hsame, Ne.symm hsame]

/-- The last `count` outcomes are all the same. -/
theorem replicate_end_iff {count : Nat} {success : Bool} {outcomes : List Bool} :
    List.replicate count success <:+ outcomes ↔ count ≤ trailing success outcomes := by
  rw [← List.reverse_prefix, List.reverse_replicate, replicate_start_iff, trailing]

/-- A positive threshold that a counter has reached was reached by the outcomes, even if the
counter has wrapped around. -/
theorem threshold_le_of_reached {threshold : Int32} {count : Nat}
    (hreached : Int32.ofNat count ≥ threshold) : threshold.toInt ≤ count := by
  have hle : threshold.toInt ≤ (Int32.ofNat count).toInt := Int32.le_iff_toInt_le.mp hreached
  have hwrap : (Int32.ofNat count).toInt ≤ count := by
    have hsize : Int32.size = 2 ^ 32 := rfl
    rw [Int32.toInt_ofNat', Int.bmod_def, hsize]
    split <;> omega
  omega

/-! ## Whole runs -/

/-- The outcome of a check for which a connection was acquired. -/
structure Outcome where
  conn : BackendConn
  success : Bool
  now : Int
  deriving DecidableEq, Repr

/-- The turn in which the outcome is processed. -/
def processOutcome (checker : HealthChecker) (outcome : Outcome) :
    Option BackendConn × HealthChecker :=
  healthCheckTurn checker ⟨some (outcome.conn, outcome.success), outcome.now⟩

/-- The last checks, as many as the threshold says, have all had this outcome. -/
def HealthCheckConfig.Settled (config : HealthCheckConfig) (outcomes : List Outcome)
    (success : Bool) : Prop :=
  List.replicate (config.threshold success).toInt.toNat success <:+ outcomes.map Outcome.success

/-- The checker's health is the verdict of the last checks whenever they have one. -/
def Judged (config : HealthCheckConfig) (outcomes : List Outcome) : Prop :=
  ∀ success, config.Settled outcomes success →
    (after processOutcome (healthCheckerStart config) outcomes).health = verdict success

/-- The counters are the numbers of equal outcomes at the end of the run. -/
structure Counting (config : HealthCheckConfig) (outcomes : List Outcome) : Prop where
  configured : (after processOutcome (healthCheckerStart config) outcomes).config = config
  counted : ∀ success,
    (after processOutcome (healthCheckerStart config) outcomes).streak success =
      Int32.ofNat (trailing success (outcomes.map Outcome.success))

/-- The counters are those of all outcomes so far. -/
theorem counting (config : HealthCheckConfig) (outcomes : List Outcome) :
    Counting config outcomes := by
  induction outcomes using List.reverseRecOn with
  | nil => exact ⟨rfl, fun success => by cases success <;> rfl⟩
  | append_singleton outcomes outcome ih =>
      obtain ⟨hconfig, hcounted⟩ := ih
      obtain ⟨hconfig', hsame, hother, -⟩ := turn_acquired
        (after processOutcome (healthCheckerStart config) outcomes) outcome.conn outcome.success
        outcome.now
      rw [← processOutcome] at hconfig' hsame hother
      refine ⟨?_, fun success => ?_⟩
      · rw [after_append]
        exact hconfig'.trans hconfig
      · rw [after_append, List.map_append]
        by_cases hsuccess : success = outcome.success
        · subst hsuccess
          refine hsame.trans ?_
          rw [hcounted, List.map_singleton, trailing_concat_self, Int32.ofNat_add]
          rfl
        · obtain rfl : success = !outcome.success := Bool.eq_not_of_ne hsuccess
          refine hother.trans ?_
          rw [List.map_singleton, trailing_concat_not]
          rfl

/-- As long as neither threshold has been reached before, the health stays UNKNOWN. -/
theorem health_unknown (config : HealthCheckConfig) (outcomes : List Outcome)
    (hearlier : ∀ count < outcomes.length, ∀ success,
      ¬ config.Settled (outcomes.take count) success) :
    (after processOutcome (healthCheckerStart config) outcomes).health = .unknown := by
  induction outcomes using List.reverseRecOn with
  | nil => rfl
  | append_singleton outcomes outcome ih =>
      have hbefore : (after processOutcome (healthCheckerStart config) outcomes).health =
          .unknown := by
        refine ih fun count hcount success => ?_
        have hnot := hearlier count (by simp; omega) success
        rwa [List.take_append_of_le_length (by omega)] at hnot
      obtain ⟨hconfig, hcounted⟩ := counting config outcomes
      obtain ⟨-, -, -, hhealth⟩ := turn_acquired
        (after processOutcome (healthCheckerStart config) outcomes) outcome.conn outcome.success
        outcome.now
      rw [← processOutcome] at hhealth
      rw [after_append]
      refine hhealth.trans ?_
      rw [if_neg, hbefore]
      -- The other counter is at its threshold only if the earlier outcomes have reached it.
      rintro ⟨hreached, -⟩
      rw [hconfig, hcounted] at hreached
      have hnot := hearlier outcomes.length (by simp) (!outcome.success)
      rw [List.take_left, HealthCheckConfig.Settled, replicate_end_iff] at hnot
      have hle := threshold_le_of_reached hreached
      omega

/-- A list contains what some part of it from the start ends with. -/
theorem infix_iff_take {α : Type*} {part whole : List α} :
    part <:+: whole ↔ ∃ count, part <:+ whole.take count := by
  rw [List.infix_iff_suffix_prefix]
  constructor
  · rintro ⟨front, hend, hfront⟩
    exact ⟨front.length, by rwa [← List.prefix_iff_eq_take.mp hfront]⟩
  · rintro ⟨count, hend⟩
    exact ⟨_, hend, List.take_prefix count whole⟩

/-- Neither threshold is reached anywhere in the outcomes. -/
theorem never_settled_iff {config : HealthCheckConfig} {outcomes : List Outcome} :
    (∀ count success, ¬ config.Settled (outcomes.take count) success) ↔
      ¬ List.replicate config.healthyThreshold.toInt.toNat true <:+:
          outcomes.map Outcome.success ∧
        ¬ List.replicate config.unhealthyThreshold.toInt.toNat false <:+:
          outcomes.map Outcome.success := by
  simp only [infix_iff_take, HealthCheckConfig.Settled, List.map_take, not_exists,
    Bool.forall_bool, HealthCheckConfig.threshold]
  exact forall_and.trans and_comm

/-- The health is after every check the verdict of the last checks if and only if there never is
a verdict to give: the outcomes nowhere contain as many successes in a row as the healthy
threshold, nor as many failures in a row as the unhealthy one. -/
theorem verdicts_kept_iff (config : HealthCheckConfig) (outcomes : List Outcome) :
    (∀ count, Judged config (outcomes.take count)) ↔
      ¬ List.replicate config.healthyThreshold.toInt.toNat true <:+:
          outcomes.map Outcome.success ∧
        ¬ List.replicate config.unhealthyThreshold.toInt.toNat false <:+:
          outcomes.map Outcome.success := by
  rw [← never_settled_iff]
  constructor
  · intro hjudged count
    induction count using Nat.strongRecOn with
    | ind count ih =>
        -- The first checks with a verdict find the health still UNKNOWN.
        intro success hsettled
        have hunknown := health_unknown config (outcomes.take count) fun earlier hearlier => by
          have hlt : earlier < count := by
            rw [List.length_take] at hearlier
            omega
          rw [List.take_take, min_eq_left hlt.le]
          exact ih earlier hlt
        have hverdict := hjudged count success hsettled
        rw [hunknown] at hverdict
        cases success <;> cases hverdict
  · intro hquiet count success hsettled
    exact absurd hsettled (hquiet count success)

/-- With the thresholds 2 and 3, two checks that succeed leave the health UNKNOWN. -/
theorem verdict_missed :
    (after processOutcome (healthCheckerStart ⟨2, 3⟩)
        [⟨createBackendConnection 0, true, 10⟩, ⟨createBackendConnection 0, true, 20⟩]).health =
      .unknown ∧
    ¬ Judged ⟨2, 3⟩
      [⟨createBackendConnection 0, true, 10⟩, ⟨createBackendConnection 0, true, 20⟩] := by
  refine ⟨rfl, fun hjudged => ?_⟩
  have hhealthy := hjudged true (List.suffix_refl _)
  cases hhealthy

end Emme.Backend
