import Emme.Backend.Pool
import Emme.Lib.Streaks
import Mathlib.Algebra.Group.Nat.Defs
import Mathlib.Algebra.GroupWithZero.Nat

/-!
# What the marks of a connection say

`backend_pool_mark_success` and `backend_pool_mark_failure` keep two counters and the health of a
connection. The counters are the lengths of the current streaks, and the health is decided by which
of two events was seen last: two successes in a row, or three failures in a row.
-/

namespace Emme.Backend

open Streaks

/-- Record the outcomes of requests, in order. -/
def BackendConn.marks (conn : BackendConn) (outcomes : List Bool) : BackendConn :=
  outcomes.foldl BackendConn.mark conn

/-- The last moment at which two successes in a row were seen. -/
def lastRecovered (outcomes : List Bool) : Nat := lastStreak id 2 outcomes

/-- The last moment at which three failures in a row were seen. -/
def lastFailed (outcomes : List Bool) : Nat := lastStreak not 3 outcomes

/-- The health a history of outcomes amounts to. -/
def healthAfter (outcomes : List Bool) : Health :=
  if lastFailed outcomes < lastRecovered outcomes then .healthy
  else if lastRecovered outcomes < lastFailed outcomes then .unhealthy
  else .unknown

/-- The connection's record of the outcomes. -/
structure Records (outcomes : List Bool) (conn : BackendConn) : Prop where
  successes : conn.consecutiveSuccesses = streak id outcomes
  failures : conn.consecutiveFailures = streak not outcomes
  health : conn.health = healthAfter outcomes

/-- A success moves the last recovery to the end if it is at least the second in a row. -/
theorem last_recovered_success (outcomes : List Bool) :
    lastRecovered (outcomes ++ [true]) =
      if 2 ≤ streak id outcomes + 1 then outcomes.length + 1 else lastRecovered outcomes := by
  unfold lastRecovered
  rw [last_streak_concat, streak_concat]
  rfl

/-- A failure is no recovery. -/
theorem last_recovered_failure (outcomes : List Bool) :
    lastRecovered (outcomes ++ [false]) = lastRecovered outcomes := by
  unfold lastRecovered
  rw [last_streak_concat, streak_concat]
  rfl

/-- A success is no breakdown. -/
theorem last_failed_success (outcomes : List Bool) :
    lastFailed (outcomes ++ [true]) = lastFailed outcomes := by
  unfold lastFailed
  rw [last_streak_concat, streak_concat]
  rfl

/-- A failure moves the last breakdown to the end if it is at least the third in a row. -/
theorem last_failed_failure (outcomes : List Bool) :
    lastFailed (outcomes ++ [false]) =
      if 3 ≤ streak not outcomes + 1 then outcomes.length + 1 else lastFailed outcomes := by
  unfold lastFailed
  rw [last_streak_concat, streak_concat]
  rfl

/-- The last recovery is among the outcomes. -/
theorem last_recovered_le (outcomes : List Bool) : lastRecovered outcomes ≤ outcomes.length :=
  last_streak_le_length id 2 outcomes

/-- The last breakdown is among the outcomes. -/
theorem last_failed_le (outcomes : List Bool) : lastFailed outcomes ≤ outcomes.length :=
  last_streak_le_length not 3 outcomes

/-- A success makes a connection healthy if it is at least the second in a row. -/
theorem health_after_success (outcomes : List Bool) :
    healthAfter (outcomes ++ [true]) =
      if 2 ≤ streak id outcomes + 1 then .healthy else healthAfter outcomes := by
  have hle := last_failed_le outcomes
  unfold healthAfter
  rw [last_recovered_success, last_failed_success]
  split_ifs <;> first | rfl | omega

/-- A failure makes a connection unhealthy if it is at least the third in a row. -/
theorem health_after_failure (outcomes : List Bool) :
    healthAfter (outcomes ++ [false]) =
      if 3 ≤ streak not outcomes + 1 then .unhealthy else healthAfter outcomes := by
  have hle := last_recovered_le outcomes
  unfold healthAfter
  rw [last_recovered_failure, last_failed_failure]
  split_ifs <;> first | rfl | omega

/-- A fresh connection has no outcomes behind it. -/
theorem records_fresh (now : Int) : Records [] (createBackendConnection now) := ⟨rfl, rfl, rfl⟩

/-- One more outcome is recorded. -/
theorem Records.mark {outcomes : List Bool} {conn : BackendConn} (h : Records outcomes conn)
    (success : Bool) : Records (outcomes ++ [success]) (conn.mark success) := by
  cases success with
  | true =>
      refine ⟨?_, ?_, ?_⟩
      · rw [streak_concat, ← h.successes]
        rfl
      · rw [streak_concat]
        rfl
      · rw [health_after_success, ← h.successes, ← h.health]
        show (if 2 ≤ conn.consecutiveSuccesses + 1 ∧ conn.health ≠ .healthy then Health.healthy
          else conn.health) = _
        -- a healthy connection is not marked again, which makes no difference
        by_cases hhealthy : conn.health = .healthy
        · rw [hhealthy, if_neg (fun hboth => hboth.2 rfl), ite_self]
        · exact if_congr (and_iff_left hhealthy) rfl rfl
  | false =>
      refine ⟨?_, ?_, ?_⟩
      · rw [streak_concat]
        rfl
      · rw [streak_concat, ← h.failures]
        rfl
      · rw [health_after_failure, ← h.failures, ← h.health]
        rfl

/-- All outcomes of a fresh connection are recorded. -/
theorem records_marks (now : Int) (outcomes : List Bool) :
    Records outcomes ((createBackendConnection now).marks outcomes) := by
  induction outcomes using List.reverseRecOn with
  | nil => exact records_fresh now
  | append_singleton outcomes success ih =>
      unfold BackendConn.marks at ih ⊢
      rw [List.foldl_concat]
      exact ih.mark success

/-- At most one of the two streaks is running. -/
theorem streak_success_or_failure (outcomes : List Bool) :
    streak id outcomes = 0 ∨ streak not outcomes = 0 := by
  induction outcomes using List.reverseRecOn with
  | nil => exact Or.inl rfl
  | append_singleton outcomes success _ =>
      rw [streak_concat, streak_concat]
      cases success with
      | true => exact Or.inr rfl
      | false => exact Or.inl rfl

/-- The two events are never seen at the same moment. -/
theorem last_recovered_eq_last_failed {outcomes : List Bool}
    (h : lastRecovered outcomes = lastFailed outcomes) :
    lastRecovered outcomes = 0 ∧ lastFailed outcomes = 0 := by
  induction outcomes using List.reverseRecOn with
  | nil => exact ⟨rfl, rfl⟩
  | append_singleton outcomes success ih =>
      have hrecovered := last_recovered_le outcomes
      have hfailed := last_failed_le outcomes
      cases success with
      | true =>
          rw [last_recovered_success, last_failed_success] at h ⊢
          split_ifs at h ⊢ with htwo
          · omega
          · exact ih h
      | false =>
          rw [last_recovered_failure, last_failed_failure] at h ⊢
          split_ifs at h ⊢ with hthree
          · omega
          · exact ih h

/-- A connection is healthy exactly if it has recovered since it last broke down. -/
theorem health_after_healthy (outcomes : List Bool) :
    healthAfter outcomes = .healthy ↔ lastFailed outcomes < lastRecovered outcomes := by
  unfold healthAfter
  split_ifs with hrecovered hfailed <;> simp [hrecovered]

/-- A connection is unhealthy exactly if it has broken down since it last recovered. -/
theorem health_after_unhealthy (outcomes : List Bool) :
    healthAfter outcomes = .unhealthy ↔ lastRecovered outcomes < lastFailed outcomes := by
  unfold healthAfter
  split_ifs with hrecovered hfailed
  · simp [hrecovered.le]
  · simp [hfailed]
  · simp [hfailed]

/-- The health is unknown as long as there was neither a recovery nor a breakdown. -/
theorem health_after_unknown (outcomes : List Bool) :
    healthAfter outcomes = .unknown ↔ lastRecovered outcomes = 0 ∧ lastFailed outcomes = 0 := by
  constructor
  · intro h
    unfold healthAfter at h
    split_ifs at h with hrecovered hfailed
    exact last_recovered_eq_last_failed (by omega)
  · rintro ⟨hrecovered, hfailed⟩
    unfold healthAfter
    rw [hrecovered, hfailed]
    rfl

/-- **What the marks of a fresh connection say.** The counters are the lengths of the trailing runs
of successes and failures, of which at most one is not 0. The connection is healthy exactly if two
successes in a row were seen after the last three failures in a row, unhealthy if before, and of
unknown health if neither was seen. -/
theorem marks_summarise_history (now : Int) (outcomes : List Bool)
    (h : outcomes.length < 2 ^ 31) :
    let conn := (createBackendConnection now).marks outcomes
    conn.consecutiveSuccesses = streak id outcomes ∧
      conn.consecutiveFailures = streak not outcomes ∧
      conn.consecutiveSuccesses < 2 ^ 31 ∧ conn.consecutiveFailures < 2 ^ 31 ∧
      (conn.consecutiveSuccesses = 0 ∨ conn.consecutiveFailures = 0) ∧
      (conn.health = .healthy ↔ lastFailed outcomes < lastRecovered outcomes) ∧
      (conn.health = .unhealthy ↔ lastRecovered outcomes < lastFailed outcomes) ∧
      (conn.health = .unknown ↔ lastRecovered outcomes = 0 ∧ lastFailed outcomes = 0) := by
  intro conn
  have hrecords : Records outcomes conn := records_marks now outcomes
  rw [hrecords.successes, hrecords.failures, hrecords.health]
  exact ⟨rfl, rfl, (streak_le_length id outcomes).trans_lt h,
    (streak_le_length not outcomes).trans_lt h, streak_success_or_failure outcomes,
    health_after_healthy outcomes, health_after_unhealthy outcomes, health_after_unknown outcomes⟩

/-- A connection that recovered and then failed once is still healthy. -/
theorem marks_summarise_recovered :
    ((createBackendConnection 0).marks [false, false, false, true, true, false]).health =
      .healthy :=
  (marks_summarise_history 0 [false, false, false, true, true, false] (by decide)).2.2.2.2.2.1.mpr
    (by decide)

end Emme.Backend
