import Mathlib.Tactic.Common

/-!
# Sequences computed in place

A rule determines every element of a sequence from three earlier ones: the element `lag` places
before it, the one after that, and a third within the same stretch. A table of `lag` cells is moved
from one window of the sequence to the next in place, cell by cell (`Rule.cell`).
-/

namespace Recurrence

variable {α : Type*}

/-- `x (j + lag) = combine (x j) (x (j + 1)) (x (j + middle))`. -/
structure Rule (α : Type*) where
  lag : Nat
  middle : Nat
  combine : α → α → α → α
  one_lt_lag : 1 < lag
  middle_lt_lag : middle < lag

/-- The sequence with the given first elements. -/
def Rule.sequence (rule : Rule α) (initial : Nat → α) (j : Nat) : α :=
  if j < rule.lag then initial j
  else
    rule.combine (rule.sequence initial (j - rule.lag))
      (rule.sequence initial (j - rule.lag + 1))
      (rule.sequence initial (j - rule.lag + rule.middle))
termination_by j
decreasing_by
  all_goals
    have hone := rule.one_lt_lag
    have hmiddle := rule.middle_lt_lag
    omega

/-- The first elements of the sequence. -/
theorem Rule.sequence_initial (rule : Rule α) (initial : Nat → α) {j : Nat} (h : j < rule.lag) :
    rule.sequence initial j = initial j := by
  rw [Rule.sequence, if_pos h]

/-- Every later element follows by the rule. -/
theorem Rule.sequence_add_lag (rule : Rule α) (initial : Nat → α) (j : Nat) :
    rule.sequence initial (j + rule.lag) =
      rule.combine (rule.sequence initial j) (rule.sequence initial (j + 1))
        (rule.sequence initial (j + rule.middle)) := by
  rw [Rule.sequence, if_neg (by omega), Nat.add_sub_cancel]

/-- The element a cell holds when the window that starts at `base` is being replaced by the next
one and `i` cells have been replaced. -/
def Rule.cell (rule : Rule α) (x : Nat → α) (base i a : Nat) : α :=
  x (base + if a < i then rule.lag + a else a)

variable (rule : Rule α) (x : Nat → α) (base : Nat)

/-- The next cell to be replaced still holds its old element. -/
theorem Rule.cell_self (i : Nat) : rule.cell x base i i = x (base + i) := by
  unfold Rule.cell
  rw [if_neg (Nat.lt_irrefl i)]

/-- The cell `k` places after the current one, around the end of the table if need be, holds the
element `k` places after the current one. -/
theorem Rule.cell_add {i k : Nat} (hi : i < rule.lag) (hk : k < rule.lag) :
    rule.cell x base i ((i + k) % rule.lag) = x (base + (i + k)) := by
  unfold Rule.cell
  by_cases hwrap : i + k < rule.lag
  · rw [Nat.mod_eq_of_lt hwrap, if_neg (by omega)]
  · have hmod : (i + k) % rule.lag = i + k - rule.lag := by
      rw [Nat.mod_eq_sub_mod (by omega), Nat.mod_eq_of_lt (by omega)]
    rw [hmod, if_pos (by omega)]
    congr 1
    omega

/-- One more cell is replaced. -/
theorem Rule.cell_succ (i a : Nat) :
    rule.cell x base (i + 1) a =
      if i = a then x (base + i + rule.lag) else rule.cell x base i a := by
  unfold Rule.cell
  rcases Nat.lt_trichotomy i a with hlt | rfl | hgt
  · rw [if_neg (by omega), if_neg (by omega), if_neg (by omega)]
  · rw [if_pos (Nat.lt_succ_self i), if_pos rfl, Nat.add_assoc, Nat.add_comm rule.lag i]
  · rw [if_pos (by omega), if_neg (by omega), if_pos hgt]

/-- When all cells have been replaced the table holds the next window. -/
theorem Rule.cell_lag {a : Nat} (h : a < rule.lag) :
    rule.cell x base rule.lag a = x (base + rule.lag + a) := by
  unfold Rule.cell
  rw [if_pos h, Nat.add_assoc]

/-- Nothing has been replaced. -/
theorem Rule.cell_zero (a : Nat) : rule.cell x base 0 a = x (base + a) := by
  unfold Rule.cell
  rw [if_neg (Nat.not_lt_zero a)]

end Recurrence
