import Mathlib.Data.List.Perm.Subperm
import Mathlib.Logic.Function.Basic

/-!
# Slots and stacks of slots

An array used as a stack: `stack cells count` lists its first `count` cells, the bottom first.
Pushing writes the cell above the top, popping forgets the top. `length_le_of_nodup` is the
counting behind any pool of numbered slots: distinct slots below a bound are at most as many as
the bound.
-/

namespace Slots

variable {α : Type*}

/-- The first `count` cells of the array. -/
def stack (cells : Nat → α) (count : Nat) : List α := (List.range count).map cells

/-- An array without cells in use. -/
@[simp] theorem stack_zero (cells : Nat → α) : stack cells 0 = [] := rfl

/-- As many cells as are in use. -/
@[simp] theorem length_stack (cells : Nat → α) (count : Nat) :
    (stack cells count).length = count := by
  simp [stack]

/-- The top of a stack with something on it. -/
theorem stack_succ (cells : Nat → α) (count : Nat) :
    stack cells (count + 1) = stack cells count ++ [cells count] := by
  simp [stack, List.range_succ]

/-- A write above the top is not seen. -/
theorem stack_update (cells : Nat → α) {count i : Nat} (hi : count ≤ i) (value : α) :
    stack (Function.update cells i value) count = stack cells count := by
  refine List.map_congr_left fun j hj => ?_
  have hlt : j < count := List.mem_range.mp hj
  exact Function.update_of_ne (by omega) _ _

/-- A push puts the value on top. -/
theorem stack_push (cells : Nat → α) (count : Nat) (value : α) :
    stack (Function.update cells count value) (count + 1) = stack cells count ++ [value] := by
  rw [stack_succ, stack_update cells (Nat.le_refl count), Function.update_self]

/-- Distinct slots below a bound are at most as many as the bound. -/
theorem length_le_of_nodup {slots : List Nat} {bound : Nat} (hnodup : slots.Nodup)
    (hbound : ∀ slot ∈ slots, slot < bound) : slots.length ≤ bound := by
  have hsub : slots ⊆ List.range bound := fun slot hslot => List.mem_range.mpr (hbound slot hslot)
  calc slots.length ≤ (List.range bound).length := (List.subperm_of_subset hnodup hsub).length_le
    _ = bound := List.length_range

end Slots
