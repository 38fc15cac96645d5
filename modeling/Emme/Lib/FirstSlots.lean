import Emme.Lib.KeyTable

/-!
# Tables of counters whose reader stops at the first match

A table of slots as in `Emme.Lib.KeyTable`, read by a loop that stops at the first slot with the
key. `Tracks` keeps such a table exact: a slot with a counter above 0 is the first one of its key
and has its total, and every key with a total above 0 has such a slot.
-/

namespace FirstSlots

variable {κ : Type*} {key : Nat → κ} {counter : Nat → Nat} {size : Nat} {total : κ → Nat}

/-- No earlier slot has the key of slot `i`. -/
def IsFirst (key : Nat → κ) (i : Nat) : Prop := ∀ j < i, key j ≠ key i

/-- The slots in use are the first ones of their keys, and hold the totals. -/
structure Tracks (key : Nat → κ) (counter : Nat → Nat) (size : Nat) (total : κ → Nat) :
    Prop where
  first : ∀ i < size, 0 < counter i → counter i = total (key i) ∧ IsFirst key i
  present : ∀ k, 0 < total k → ∃ i < size, key i = k ∧ 0 < counter i

/-- The first slots of one key are the same slot. -/
theorem IsFirst.unique {i j : Nat} (hi : IsFirst key i) (hj : IsFirst key j)
    (heq : key i = key j) : i = j := by
  rcases Nat.lt_trichotomy i j with hlt | rfl | hlt
  · exact absurd heq (hj i hlt)
  · rfl
  · exact absurd heq.symm (hi j hlt)

/-- What the reader sees is the total: the first slot of a key has it. -/
theorem Tracks.counter_eq (h : Tracks key counter size total) {i : Nat} (hi : i < size)
    (hfirst : IsFirst key i) : counter i = total (key i) := by
  rcases Nat.eq_zero_or_pos (counter i) with hzero | hpos
  · rcases Nat.eq_zero_or_pos (total (key i)) with htotal | htotal
    · rw [hzero, htotal]
    · obtain ⟨j, hj, hkey, hpos⟩ := h.present (key i) htotal
      obtain rfl := (h.first j hj hpos).2.unique hfirst hkey
      omega
  · exact (h.first i hi hpos).1

/-- A key that no slot in use has, has total 0. -/
theorem Tracks.total_eq_zero (h : Tracks key counter size total) {k : κ}
    (habsent : ∀ i < size, 0 < counter i → key i ≠ k) : total k = 0 := by
  by_contra hne
  obtain ⟨i, hi, hkey, hpos⟩ := h.present k (Nat.pos_of_ne_zero hne)
  exact habsent i hi hpos hkey

/-- An empty table tracks totals that are all 0. -/
theorem tracks_empty (key : Nat → κ) (counter : Nat → Nat) :
    Tracks key counter 0 fun _ => 0 where
  first i hi := absurd hi (Nat.not_lt_zero i)
  present _ hk := absurd hk (Nat.lt_irrefl 0)

/-- Only the slots below the size matter. -/
theorem Tracks.congr (h : Tracks key counter size total) {key' : Nat → κ} {counter' : Nat → Nat}
    (hkey : ∀ i < size, key' i = key i) (hcounter : ∀ i < size, counter' i = counter i) :
    Tracks key' counter' size total where
  first i hi hpos := by
    rw [hcounter i hi] at hpos ⊢
    rw [hkey i hi]
    refine ⟨(h.first i hi hpos).1, fun j hj => ?_⟩
    rw [hkey i hi, hkey j (hj.trans hi)]
    exact (h.first i hi hpos).2 j hj
  present k hk := by
    obtain ⟨i, hi, hkeyi, hpos⟩ := h.present k hk
    exact ⟨i, hi, (hkey i hi).trans hkeyi, by rwa [hcounter i hi]⟩

/-- Slots with counter 0 may change their keys as long as they hide no slot in use. -/
theorem Tracks.rekey (h : Tracks key counter size total) {key' : Nat → κ}
    (hkey : ∀ i < size, 0 < counter i → key' i = key i ∧ IsFirst key' i) :
    Tracks key' counter size total where
  first i hi hpos := by
    obtain ⟨hsame, hfirst⟩ := hkey i hi hpos
    exact ⟨hsame ▸ (h.first i hi hpos).1, hfirst⟩
  present k hk := by
    obtain ⟨i, hi, hkeyi, hpos⟩ := h.present k hk
    exact ⟨i, hi, (hkey i hi hpos).1.trans hkeyi, hpos⟩

/-- A table whose counters are all 0 may be emptied. -/
theorem Tracks.reset (h : Tracks key counter size total)
    (hzero : ∀ i < size, counter i = 0) : Tracks key counter 0 total where
  first i hi := absurd hi (Nat.not_lt_zero i)
  present k hk := by
    obtain ⟨i, hi, _, hpos⟩ := h.present k hk
    exact absurd (hzero i hi) (Nat.ne_of_gt hpos)

/-- One more slot, with counter 0. -/
theorem Tracks.grow (h : Tracks key counter size total) :
    Tracks key (Function.update counter size 0) (size + 1) total where
  first i hi hpos := by
    by_cases his : i = size
    · subst his
      rw [Function.update_self] at hpos
      omega
    · rw [Function.update_of_ne his] at hpos ⊢
      exact h.first i (by omega) hpos
  present k hk := by
    obtain ⟨i, hi, hkey, hpos⟩ := h.present k hk
    refine ⟨i, by omega, hkey, ?_⟩
    rwa [Function.update_of_ne (Nat.ne_of_lt hi)]

section Update

variable [DecidableEq κ]

/-- Counting in the first slot of a key. -/
theorem Tracks.set_counter (h : Tracks key counter size total) {i : Nat} (hi : i < size)
    (hfirst : IsFirst key i) (value : Nat) :
    Tracks key (Function.update counter i value) size
      (Function.update total (key i) value) where
  first j hj hpos := by
    by_cases hji : j = i
    · subst hji
      simp [hfirst]
    · rw [Function.update_of_ne hji] at hpos ⊢
      obtain ⟨hcount, hfirstj⟩ := h.first j hj hpos
      rw [Function.update_of_ne fun heq => hji (hfirstj.unique hfirst heq)]
      exact ⟨hcount, hfirstj⟩
  present k hk := by
    by_cases hki : k = key i
    · subst hki
      rw [Function.update_self] at hk
      exact ⟨i, hi, rfl, by rwa [Function.update_self]⟩
    · rw [Function.update_of_ne hki] at hk
      obtain ⟨j, hj, hkey, hpos⟩ := h.present k hk
      refine ⟨j, hj, hkey, ?_⟩
      rwa [Function.update_of_ne fun heq => hki (by rw [← hkey, heq])]

/-- Giving a slot with counter 0 to a key that no other slot has. -/
theorem Tracks.reuse (h : Tracks key counter size total) {i : Nat} (hi : i < size)
    (hfree : counter i = 0) {k : κ} (habsent : ∀ j < size, j ≠ i → key j ≠ k) (value : Nat) :
    Tracks (Function.update key i k) (Function.update counter i value) size
      (Function.update total k value) where
  first j hj hpos := by
    by_cases hji : j = i
    · subst hji
      refine ⟨by simp, fun j' hj' => ?_⟩
      rw [Function.update_self, Function.update_of_ne (Nat.ne_of_lt hj')]
      exact habsent j' (hj'.trans hj) (Nat.ne_of_lt hj')
    · rw [Function.update_of_ne hji] at hpos
      obtain ⟨hcount, hfirst⟩ := h.first j hj hpos
      have hk := habsent j hj hji
      rw [Function.update_of_ne hji, Function.update_of_ne hji, Function.update_of_ne hk]
      refine ⟨hcount, fun j' hj' => ?_⟩
      rw [Function.update_of_ne hji]
      by_cases hj'i : j' = i
      · subst hj'i
        rw [Function.update_self]
        exact hk.symm
      · rw [Function.update_of_ne hj'i]
        exact hfirst j' hj'
  present k' hk' := by
    by_cases hkk : k' = k
    · subst hkk
      rw [Function.update_self] at hk'
      exact ⟨i, hi, Function.update_self .., by rwa [Function.update_self]⟩
    · rw [Function.update_of_ne hkk] at hk'
      obtain ⟨j, hj, hkey, hpos⟩ := h.present k' hk'
      have hji : j ≠ i := by
        rintro rfl
        omega
      refine ⟨j, hj, ?_, ?_⟩
      · rwa [Function.update_of_ne hji]
      · rwa [Function.update_of_ne hji]

/-- Adding a slot for a key that no slot has. -/
theorem Tracks.append (h : Tracks key counter size total) {k : κ}
    (habsent : ∀ j < size, key j ≠ k) (value : Nat) :
    Tracks (Function.update key size k) (Function.update counter size value) (size + 1)
      (Function.update total k value) := by
  have hgrown := h.grow.reuse (Nat.lt_succ_self size) (Function.update_self ..)
    (fun j hj hjs => habsent j (by omega)) value
  rwa [Function.update_idem] at hgrown

end Update

/-- The slots in use form a table in which vacant slots have a key of their own and no key
stands twice. -/
theorem Tracks.holds (h : Tracks key counter size total) :
    KeyTable.Holds none (fun i => if 0 < counter i then some (key i) else none) counter size
      (fun k => k.elim 0 total) where
  counter_eq i hi hne := by
    by_cases hpos : 0 < counter i
    · rw [if_pos hpos]
      exact (h.first i hi hpos).1
    · exact absurd (if_neg hpos) hne
  vacant i _ hnone := by
    by_contra hne
    rw [if_pos (Nat.pos_of_ne_zero hne)] at hnone
    cases hnone
  unique i hi j hj heq hne := by
    by_cases hpos : 0 < counter i
    · rw [if_pos hpos] at heq
      by_cases hpos' : 0 < counter j
      · rw [if_pos hpos'] at heq
        exact (h.first i hi hpos).2.unique (h.first j hj hpos').2 (Option.some.inj heq)
      · rw [if_neg hpos'] at heq
        cases heq
    · exact absurd (if_neg hpos) hne
  present k hk := by
    cases k with
    | none => exact absurd hk (Nat.lt_irrefl 0)
    | some k =>
        obtain ⟨i, hi, hkey, hpos⟩ := h.present k hk
        exact ⟨Option.some_ne_none k, i, hi, by rw [if_pos hpos, hkey]⟩

/-- Fewer than `bound` keys have a total above 0 if and only if the table is shorter than
`bound` or has a slot with counter 0. -/
theorem Tracks.active_lt_iff (h : Tracks key counter size total) {bound : Nat}
    (hsize : size ≤ bound) :
    {k | 0 < total k}.ncard < bound ↔ size < bound ∨ ∃ i < size, counter i = 0 := by
  have hactive : {k : Option κ | 0 < k.elim 0 total} = some '' {k | 0 < total k} := by
    ext k
    cases k with
    | none => simp
    | some k => simp
  rw [← h.holds.active_lt_iff hsize, hactive,
    Set.ncard_image_of_injective _ (Option.some_injective κ)]

end FirstSlots
