import Mathlib.Data.Set.Card
import Mathlib.Order.Interval.Finset.Nat
import Mathlib.Order.Interval.Set.Infinite
import Mathlib.Logic.Function.Basic
import Mathlib.Tactic.Common

/-!
# Tables of keyed counters

A table keeps its counters in numbered slots, each with a key. A slot whose key is `null` is vacant,
and one whose counter is 0 may be reused. `Holds` relates the slots below `size` to totals: every
total that is not 0 is the counter of exactly one slot.
-/

namespace KeyTable

variable {κ : Type*}

/-- The slots below `size` hold the totals. -/
structure Holds (null : κ) (key : Nat → κ) (counter : Nat → Nat) (size : Nat)
    (total : κ → Nat) : Prop where
  counter_eq : ∀ i < size, key i ≠ null → counter i = total (key i)
  vacant : ∀ i < size, key i = null → counter i = 0
  unique : ∀ i < size, ∀ j < size, key i = key j → key i ≠ null → i = j
  present : ∀ k, 0 < total k → k ≠ null ∧ ∃ i < size, key i = k

variable {null : κ} {key : Nat → κ} {counter : Nat → Nat} {size : Nat} {total : κ → Nat}

/-- The empty table holds the zero totals. -/
theorem holds_empty (null : κ) (key : Nat → κ) (counter : Nat → Nat) :
    Holds null key counter 0 fun _ => 0 where
  counter_eq i hi := absurd hi (Nat.not_lt_zero i)
  vacant i hi := absurd hi (Nat.not_lt_zero i)
  unique i hi := absurd hi (Nat.not_lt_zero i)
  present _ hk := absurd hk (Nat.lt_irrefl 0)

/-- A key that no slot has stands for 0. -/
theorem Holds.total_eq_zero (h : Holds null key counter size total) {k : κ}
    (habsent : ∀ i < size, key i ≠ k) : total k = 0 := by
  by_contra hne
  obtain ⟨_, i, hi, hk⟩ := h.present k (Nat.pos_of_ne_zero hne)
  exact habsent i hi hk

/-- A slot with a counter above 0 has a key, and the key's total is the counter. -/
theorem Holds.total_of_pos (h : Holds null key counter size total) {i : Nat} (hi : i < size)
    (hpos : 0 < counter i) : key i ≠ null ∧ total (key i) = counter i := by
  have hkey : key i ≠ null := fun hnull => by
    have := h.vacant i hi hnull
    omega
  exact ⟨hkey, (h.counter_eq i hi hkey).symm⟩

/-- Overwriting the counter of a key's slot overwrites that key's total. -/
theorem Holds.set_counter [DecidableEq κ] (h : Holds null key counter size total) {i : Nat}
    (hi : i < size) (hkey : key i ≠ null) (value : Nat) :
    Holds null key (Function.update counter i value) size
      (Function.update total (key i) value) where
  counter_eq j hj hkeyj := by
    by_cases hji : j = i
    · subst hji
      simp
    · have hne : key j ≠ key i := fun heq => hji (h.unique j hj i hi heq hkeyj)
      rw [Function.update_of_ne hji, Function.update_of_ne hne]
      exact h.counter_eq j hj hkeyj
  vacant j hj hnull := by
    have hji : j ≠ i := fun heq => hkey (heq ▸ hnull)
    rw [Function.update_of_ne hji]
    exact h.vacant j hj hnull
  unique := h.unique
  present k hk := by
    by_cases hki : k = key i
    · exact ⟨hki ▸ hkey, i, hi, hki.symm⟩
    · rw [Function.update_of_ne hki] at hk
      exact h.present k hk

/-- A slot with counter 0 may be given to a key that no slot has. -/
theorem Holds.reuse [DecidableEq κ] (h : Holds null key counter size total) {i : Nat}
    (hi : i < size) (hfree : counter i = 0) {k : κ} (hk : k ≠ null)
    (habsent : ∀ j < size, key j ≠ k) (value : Nat) :
    Holds null (Function.update key i k) (Function.update counter i value) size
      (Function.update total k value) where
  counter_eq j hj hkeyj := by
    by_cases hji : j = i
    · subst hji
      simp
    · rw [Function.update_of_ne hji] at hkeyj ⊢
      rw [Function.update_of_ne hji, Function.update_of_ne (habsent j hj)]
      exact h.counter_eq j hj hkeyj
  vacant j hj hnull := by
    by_cases hji : j = i
    · subst hji
      exact absurd (by simpa using hnull) hk
    · rw [Function.update_of_ne hji] at hnull ⊢
      exact h.vacant j hj hnull
  unique j hj l hl heq hkeyj := by
    by_cases hji : j = i <;> by_cases hli : l = i
    · rw [hji, hli]
    · subst hji
      rw [Function.update_self, Function.update_of_ne hli] at heq
      exact absurd heq.symm (habsent l hl)
    · subst hli
      rw [Function.update_self, Function.update_of_ne hji] at heq
      exact absurd heq (habsent j hj)
    · rw [Function.update_of_ne hji] at heq hkeyj
      rw [Function.update_of_ne hli] at heq
      exact h.unique j hj l hl heq hkeyj
  present k' hk' := by
    by_cases hkk : k' = k
    · exact ⟨hkk ▸ hk, i, hi, by simp [hkk]⟩
    · rw [Function.update_of_ne hkk] at hk'
      obtain ⟨hnull, j, hj, hkeyj⟩ := h.present k' hk'
      refine ⟨hnull, j, hj, ?_⟩
      -- the slot that is given away does not hold a key whose total is above 0
      have hji : j ≠ i := fun heq => by
        have := h.counter_eq j hj (hkeyj ▸ hnull)
        rw [hkeyj, heq, hfree] at this
        omega
      rw [Function.update_of_ne hji]
      exact hkeyj

/-- Only the slots below `size` matter. -/
theorem Holds.congr (h : Holds null key counter size total) {key' : Nat → κ}
    {counter' : Nat → Nat} (hkey : ∀ i < size, key' i = key i)
    (hcounter : ∀ i < size, counter' i = counter i) :
    Holds null key' counter' size total where
  counter_eq i hi := by
    rw [hkey i hi, hcounter i hi]
    exact h.counter_eq i hi
  vacant i hi := by
    rw [hkey i hi, hcounter i hi]
    exact h.vacant i hi
  unique i hi j hj := by
    rw [hkey i hi, hkey j hj]
    exact h.unique i hi j hj
  present k hk := by
    obtain ⟨hnull, i, hi, hkeyi⟩ := h.present k hk
    exact ⟨hnull, i, hi, by rw [hkey i hi, hkeyi]⟩

/-- A vacant slot may be added at the end. -/
private theorem Holds.extend (h : Holds null key counter size total) (hkey : key size = null)
    (hcounter : counter size = 0) : Holds null key counter (size + 1) total where
  counter_eq i hi hne := by
    rcases Nat.lt_succ_iff_lt_or_eq.mp hi with hlt | rfl
    · exact h.counter_eq i hlt hne
    · exact absurd hkey hne
  vacant i hi hnull := by
    rcases Nat.lt_succ_iff_lt_or_eq.mp hi with hlt | rfl
    · exact h.vacant i hlt hnull
    · exact hcounter
  unique i hi j hj heq hne := by
    rcases Nat.lt_succ_iff_lt_or_eq.mp hi with hi | rfl
    · rcases Nat.lt_succ_iff_lt_or_eq.mp hj with hj | rfl
      · exact h.unique i hi j hj heq hne
      · exact absurd (heq.trans hkey) hne
    · exact absurd hkey hne
  present k hk := by
    obtain ⟨hnull, i, hi, hkeyi⟩ := h.present k hk
    exact ⟨hnull, i, Nat.lt_succ_of_lt hi, hkeyi⟩

/-- A slot may be added at the end for a key that no slot has. -/
theorem Holds.append [DecidableEq κ] (h : Holds null key counter size total) {k : κ}
    (hk : k ≠ null) (habsent : ∀ i < size, key i ≠ k) (value : Nat) :
    Holds null (Function.update key size k) (Function.update counter size value) (size + 1)
      (Function.update total k value) := by
  have hsame : Holds null (Function.update key size null) (Function.update counter size 0) size
      total :=
    h.congr (fun i hi => Function.update_of_ne (Nat.ne_of_lt hi) _ _)
      (fun i hi => Function.update_of_ne (Nat.ne_of_lt hi) _ _)
  have hvacant := hsame.extend (by simp) (by simp)
  have hreuse := hvacant.reuse (Nat.lt_succ_self size) (by simp) hk (fun i hi => ?_) value
  · simpa using hreuse
  · rcases Nat.lt_succ_iff_lt_or_eq.mp hi with hlt | rfl
    · rw [Function.update_of_ne (Nat.ne_of_lt hlt)]
      exact habsent i hlt
    · simpa using hk.symm

/-- Slots with counter 0 may lose their keys. -/
theorem Holds.clear (h : Holds null key counter size total) {key' : Nat → κ}
    (hkey : ∀ i < size, key' i = key i ∨ (key' i = null ∧ counter i = 0)) :
    Holds null key' counter size total where
  counter_eq i hi hne := by
    rcases hkey i hi with heq | ⟨hnull, _⟩
    · rw [heq] at hne ⊢
      exact h.counter_eq i hi hne
    · exact absurd hnull hne
  vacant i hi hnull := by
    rcases hkey i hi with heq | ⟨_, hzero⟩
    · exact h.vacant i hi (heq ▸ hnull)
    · exact hzero
  unique i hi j hj heq hne := by
    rcases hkey i hi with hi' | ⟨hnull, _⟩
    · rcases hkey j hj with hj' | ⟨hnull, _⟩
      · rw [hi'] at heq hne
        exact h.unique i hi j hj (heq.trans hj') hne
      · exact absurd (heq.trans hnull) hne
    · exact absurd hnull hne
  present k hk := by
    obtain ⟨hnull, i, hi, hkeyi⟩ := h.present k hk
    refine ⟨hnull, i, hi, ?_⟩
    rcases hkey i hi with heq | ⟨_, hzero⟩
    · rw [heq, hkeyi]
    · have := h.counter_eq i hi (hkeyi ▸ hnull)
      rw [hkeyi] at this
      omega

/-- A table whose counters are all 0 may be emptied. -/
theorem Holds.reset (h : Holds null key counter size total)
    (hzero : ∀ i < size, counter i = 0) : Holds null key counter 0 total where
  counter_eq i hi := absurd hi (Nat.not_lt_zero i)
  vacant i hi := absurd hi (Nat.not_lt_zero i)
  unique i hi := absurd hi (Nat.not_lt_zero i)
  present k hk := by
    obtain ⟨hnull, i, hi, hkeyi⟩ := h.present k hk
    have := h.counter_eq i hi (hkeyi ▸ hnull)
    rw [hkeyi, hzero i hi] at this
    omega

/-- The keys with a total above 0 are those of the slots with a counter above 0. -/
theorem Holds.active_eq_image (h : Holds null key counter size total) :
    {k | 0 < total k} = key '' {i | i < size ∧ 0 < counter i} := by
  ext k
  constructor
  · intro hk
    obtain ⟨hnull, i, hi, hkeyi⟩ := h.present k hk
    refine ⟨i, ⟨hi, ?_⟩, hkeyi⟩
    rw [h.counter_eq i hi (hkeyi ▸ hnull), hkeyi]
    exact hk
  · rintro ⟨i, ⟨hi, hpos⟩, rfl⟩
    show 0 < total (key i)
    rw [(h.total_of_pos hi hpos).2]
    exact hpos

/-- There are as many keys with a total above 0 as slots with a counter above 0. -/
theorem Holds.active_ncard (h : Holds null key counter size total) :
    {k | 0 < total k}.ncard = {i | i < size ∧ 0 < counter i}.ncard := by
  rw [h.active_eq_image]
  apply Set.InjOn.ncard_image
  rintro i ⟨hi, hpos⟩ j ⟨hj, _⟩ heq
  exact h.unique i hi j hj heq (h.total_of_pos hi hpos).1

/-- Fewer than `bound` keys have a total above 0 if and only if the table is shorter than
`bound` or has a slot with counter 0. -/
theorem Holds.active_lt_iff (h : Holds null key counter size total) {bound : Nat}
    (hsize : size ≤ bound) :
    {k | 0 < total k}.ncard < bound ↔ size < bound ∨ ∃ i < size, counter i = 0 := by
  rw [h.active_ncard]
  have hsub : {i | i < size ∧ 0 < counter i} ⊆ Set.Iio size := fun i hi => hi.1
  have hcard : (Set.Iio size).ncard = size := by
    rw [← Finset.coe_Iio, Set.ncard_coe_finset, Nat.card_Iio]
  constructor
  · intro hlt
    by_contra hnot
    rw [not_or, not_lt] at hnot
    obtain ⟨hfull, hpos⟩ := hnot
    have heq : {i | i < size ∧ 0 < counter i} = Set.Iio size := by
      apply Set.Subset.antisymm hsub
      intro i hi
      exact ⟨hi, Nat.pos_of_ne_zero fun hzero => hpos ⟨i, hi, hzero⟩⟩
    rw [heq, hcard] at hlt
    omega
  · rintro (hlt | ⟨i, hi, hzero⟩)
    · exact lt_of_le_of_lt ((Set.ncard_le_ncard hsub (Set.finite_Iio size)).trans_eq hcard) hlt
    · have hssub : {i | i < size ∧ 0 < counter i} ⊂ Set.Iio size := by
        refine ⟨hsub, fun hsup => ?_⟩
        have := (hsup hi).2
        omega
      exact lt_of_lt_of_le ((Set.ncard_lt_ncard hssub (Set.finite_Iio size)).trans_eq hcard) hsize

end KeyTable
