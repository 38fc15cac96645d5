import Mathlib.Data.List.DropRight
import Mathlib.Data.Nat.Find

/-!
# Streaks

A history is a list that grows at its end. `streak` is the length of its trailing run of elements
that satisfy a predicate, and `lastStreak` the last moment at which that run had a given length, a
moment being the number of elements read so far. The two lemmas about `history ++ [x]` say how one
more element changes them.
-/

namespace Streaks

variable {α : Type*} (p : α → Bool)

/-- The length of the trailing run of elements that satisfy the predicate. -/
def streak (history : List α) : Nat := (history.rtakeWhile p).length

/-- The last moment at which a trailing run of at least `n` elements was observed; 0 is the moment
before the first element. -/
def lastStreak (n : Nat) (history : List α) : Nat :=
  Nat.findGreatest (fun k => n ≤ streak p (history.take k)) history.length

/-- Nothing has been observed. -/
@[simp] theorem streak_nil : streak p [] = 0 := rfl

/-- One more element lengthens the run or ends it. -/
theorem streak_concat (history : List α) (x : α) :
    streak p (history ++ [x]) = if p x then streak p history + 1 else 0 := by
  unfold streak
  rw [List.rtakeWhile_concat]
  split
  · rw [List.length_append, List.length_singleton]
  · rfl

/-- A run is not longer than the history. -/
theorem streak_le_length (history : List α) : streak p history ≤ history.length :=
  (List.rtakeWhile_suffix p history).length_le

/-- Predicates that agree up to a bound have the same greatest solution below it. -/
theorem find_greatest_congr {P Q : Nat → Prop} [DecidablePred P] [DecidablePred Q] {n : Nat}
    (h : ∀ k ≤ n, (P k ↔ Q k)) : Nat.findGreatest P n = Nat.findGreatest Q n := by
  induction n with
  | zero => rfl
  | succ n ih =>
      rw [Nat.findGreatest_succ, Nat.findGreatest_succ, ih fun k hk => h k (Nat.le_succ_of_le hk)]
      exact if_congr (h (n + 1) (Nat.le_refl _)) rfl rfl

/-- Before the first element no run was observed. -/
@[simp] theorem last_streak_nil (n : Nat) : lastStreak p n [] = 0 := rfl

/-- The moment is within the history. -/
theorem last_streak_le_length (n : Nat) (history : List α) :
    lastStreak p n history ≤ history.length :=
  Nat.findGreatest_le _

/-- One more element moves the moment to the end if the run is long enough then. -/
theorem last_streak_concat (n : Nat) (history : List α) (x : α) :
    lastStreak p n (history ++ [x]) =
      if n ≤ streak p (history ++ [x]) then history.length + 1 else lastStreak p n history := by
  have hwhole : (history ++ [x]).take (history.length + 1) = history ++ [x] :=
    List.take_of_length_le (by simp)
  unfold lastStreak
  rw [List.length_append, List.length_singleton, Nat.findGreatest_succ, hwhole]
  split
  · rfl
  · -- the moments up to the old length see the old history only
    refine find_greatest_congr fun k hk => ?_
    rw [List.take_append_of_le_length hk]

end Streaks
