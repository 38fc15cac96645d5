import Mathlib.Data.List.Basic
import Mathlib.Data.List.Count
import Mathlib.Tactic.Common

/-!
# Buckets and running totals

A value is counted in the first bucket whose bound it fits. If whatever fits a bound fits all
later ones, the running totals over the buckets say for each bound how many values fit it
(`totals_records`).
-/

namespace Buckets

variable {ν β κ : Type*}

/-- Count a value in the first bucket that it fits, if there is one. -/
def record (succ : κ → κ) (fits : ν → β → Bool) (value : ν) : List β → List κ → List κ
  | bound :: bounds, count :: counts =>
      if fits value bound then succ count :: counts
      else count :: record succ fits value bounds counts
  | _, counts => counts

/-- The running totals, from a total so far. -/
def totals : Nat → List Nat → List Nat
  | _, [] => []
  | total, count :: counts => (total + count) :: totals (total + count) counts

/-- Whatever fits a bound fits all later ones. -/
def Ascending (fits : ν → β → Bool) (bounds : List β) : Prop :=
  bounds.Pairwise fun low high => ∀ value, fits value low = true → fits value high = true

variable {fits : ν → β → Bool} {bounds : List β}

/-- Counting a value adds no bucket. -/
@[simp] theorem length_record (succ : κ → κ) (fits : ν → β → Bool) (value : ν) (bounds : List β)
    (counts : List κ) : (record succ fits value bounds counts).length = counts.length := by
  induction bounds generalizing counts with
  | nil => rfl
  | cons bound bounds ih =>
      cases counts with
      | nil => rfl
      | cons count counts =>
          rw [record]
          split
          · rfl
          · rw [List.length_cons, ih, List.length_cons]

/-- Counters of another kind are counted up alike. -/
theorem record_map {μ : Type*} {succ : κ → κ} {succ' : μ → μ} {view : κ → μ}
    (hview : ∀ count, view (succ count) = succ' (view count)) (value : ν) (bounds : List β)
    (counts : List κ) :
    record succ' fits value bounds (counts.map view) =
      (record succ fits value bounds counts).map view := by
  induction bounds generalizing counts with
  | nil => rfl
  | cons bound bounds ih =>
      cases counts with
      | nil => rfl
      | cons count counts =>
          rw [List.map_cons, record, record]
          split
          · rw [List.map_cons, hview]
          · rw [List.map_cons, ih]

/-- One more in the total so far is one more in every running total. -/
theorem totals_succ (total : Nat) (counts : List Nat) :
    totals (total + 1) counts = (totals total counts).map (· + 1) := by
  induction counts generalizing total with
  | nil => rfl
  | cons count counts ih =>
      rw [totals, totals, List.map_cons, Nat.add_right_comm total 1 count, ih]

/-- Recording a value adds one to the totals of the bounds that it fits. -/
theorem totals_record (hbounds : Ascending fits bounds) {figure : β → Nat} {counts : List Nat}
    {total : Nat} (h : totals total counts = bounds.map figure) (value : ν) :
    totals total (record (· + 1) fits value bounds counts) =
      bounds.map fun bound => figure bound + if fits value bound then 1 else 0 := by
  induction bounds generalizing counts total with
  | nil => exact h
  | cons bound bounds ih =>
      cases counts with
      | nil => cases h
      | cons count counts =>
          obtain ⟨hlater, hrest⟩ := List.pairwise_cons.mp hbounds
          rw [totals, List.map_cons, List.cons.injEq] at h
          obtain ⟨hfirst, htotals⟩ := h
          rw [record]
          cases hfits : fits value bound with
          | true =>
              -- the value fits all later bounds, whose totals grow with this count
              have hall : (bounds.map fun later => figure later + if fits value later then 1 else 0)
                  = bounds.map fun later => figure later + 1 :=
                List.map_congr_left fun later hmem => by rw [if_pos (hlater later hmem value hfits)]
              rw [if_pos rfl, totals, ← Nat.add_assoc, totals_succ, htotals, hfirst, List.map_map,
                List.map_cons, hall, if_pos hfits]
              rfl
          | false =>
              rw [if_neg Bool.false_ne_true, totals, ih hrest htotals, hfirst, List.map_cons, hfits,
                if_neg Bool.false_ne_true, Nat.add_zero]

/-- The running totals of recorded values: how many of them fit each bound. -/
theorem totals_records (hbounds : Ascending fits bounds) {figure : β → Nat} {counts : List Nat}
    (h : totals 0 counts = bounds.map figure) (values : List ν) :
    totals 0 (values.foldl (fun counts value => record (· + 1) fits value bounds counts) counts) =
      bounds.map fun bound => figure bound + values.countP (fits · bound) := by
  induction values generalizing counts figure with
  | nil => simpa using h
  | cons value values ih =>
      rw [List.foldl_cons, ih (totals_record hbounds h value)]
      refine List.map_congr_left fun bound _ => ?_
      rw [List.countP_cons, Nat.add_assoc, Nat.add_comm (values.countP _)]

end Buckets
