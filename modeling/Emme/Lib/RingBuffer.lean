import Mathlib.Data.Nat.ModEq
import Mathlib.Logic.Function.Basic
import Mathlib.Tactic.Common

/-!
# Circular storage and unbounded queues

`window cells capacity front count` lists the `count` cells that follow `front` in circular storage.
`Fifo.Steps` is the queue such storage is meant to implement, with a put that may be refused and a
take that fails only on the empty list.
-/

namespace RingBuffer

variable {α : Type*}

/-- The `count` cells from `front` on, in circular order. -/
def window (cells : Nat → α) (capacity front count : Nat) : List α :=
  (List.range count).map fun i => cells ((front + i) % capacity)

/-- A window without cells. -/
@[simp] theorem window_zero (cells : Nat → α) (capacity front : Nat) :
    window cells capacity front 0 = [] := rfl

/-- Two offsets less than one lap apart name different cells. -/
theorem index_ne {capacity front i n : Nat} (hi : i < n) (hn : n < capacity) :
    (front + i) % capacity ≠ (front + n) % capacity := by
  intro heq
  have hmod : i ≡ n [MOD capacity] := Nat.ModEq.add_left_cancel' front heq
  have : i = n := hmod.eq_of_lt_of_lt (hi.trans hn) hn
  omega

/-- Writing the cell after the window appends the written value. -/
theorem window_write_next (cells : Nat → α) {capacity front count : Nat} (value : α)
    (hroom : count < capacity) :
    window (Function.update cells ((front + count) % capacity) value) capacity front (count + 1) =
      window cells capacity front count ++ [value] := by
  unfold window
  rw [List.range_succ, List.map_append]
  congr 1
  · apply List.map_congr_left
    intro i hi
    have hi : i < count := List.mem_range.mp hi
    exact Function.update_of_ne (index_ne hi hroom) value cells
  · simp

/-- A window with an element is its first cell followed by the window one cell on. -/
theorem window_succ (cells : Nat → α) (capacity front count : Nat) :
    window cells capacity front (count + 1) =
      cells (front % capacity) :: window cells capacity ((front + 1) % capacity) count := by
  unfold window
  rw [List.range_succ_eq_map, List.map_cons, List.map_map, Nat.add_zero]
  congr 1
  apply List.map_congr_left
  intro i _
  simp only [Function.comp, Nat.succ_eq_add_one, Nat.mod_add_mod]
  congr 2
  omega

/-- Two windows of one length are equal when their cells agree offset by offset. -/
theorem window_congr {cells cells' : Nat → α} {capacity capacity' front front' count : Nat}
    (h : ∀ i < count, cells ((front + i) % capacity) = cells' ((front' + i) % capacity')) :
    window cells capacity front count = window cells' capacity' front' count := by
  apply List.map_congr_left
  intro i hi
  exact h i (List.mem_range.mp hi)

end RingBuffer

namespace Fifo

variable {α : Type*}

/-- What a caller of a queue sees of one call. -/
inductive Event (α : Type*) where
  | pushed (value : α) (accepted : Bool)
  | popped (value : Option α)
  deriving DecidableEq

/-- One call on the list of queued values, oldest first. -/
inductive Step : List α → Event α → List α → Prop where
  | push (queued value) : Step queued (.pushed value true) (queued ++ [value])
  | refuse (queued value) : Step queued (.pushed value false) queued
  | pop (value rest) : Step (value :: rest) (.popped (some value)) rest
  | empty : Step [] (.popped none) []

/-- A push that was accepted appended its value. -/
theorem Step.of_accepted {queued queued' : List α} {value : α}
    (h : Step queued (.pushed value true) queued') : queued' = queued ++ [value] := by
  cases h
  rfl

/-- A pop took the oldest value. -/
theorem Step.of_popped {queued queued' : List α} {value : α}
    (h : Step queued (.popped (some value)) queued') : queued = value :: queued' := by
  cases h
  rfl

/-- A pop that returned nothing took nothing. -/
theorem Step.of_refused {queued queued' : List α} (h : Step queued (.popped none) queued') :
    queued = queued' := by
  cases h
  rfl

/-- The calls of a list one after another. -/
inductive Steps : List α → List (Event α) → List α → Prop where
  | refl (queued) : Steps queued [] queued
  | cons {start middle finish event events} :
      Step start event middle → Steps middle events finish →
      Steps start (event :: events) finish

/-- Accepted pushes append their values in order. -/
theorem Steps.pushed {start finish values : List α}
    (h : Steps start (values.map fun value => .pushed value true) finish) :
    finish = start ++ values := by
  induction values generalizing start with
  | nil =>
      cases h
      simp
  | cons value values ih =>
      cases h with
      | cons hstep hrest =>
          cases hstep
          simpa using ih hrest

end Fifo
