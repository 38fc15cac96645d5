import Emme.IpLimiter.Compaction
import Mathlib.Algebra.BigOperators.Group.Finset.Piecewise
import Mathlib.Algebra.Order.BigOperators.Group.Finset

/-!
# What `total_entries` counts

The slots that track an address are those below the count of their shard whose address is not 0.
`total_entries` and their number move together, except when a check gives an idle slot that still
tracks another address to a new one (`total_entries_iff`).
-/

namespace Emme.IpLimiter

open Execution

/-! ## Slots that track an address -/

/-- The slots of a shard that track an address. -/
def trackedSlots (shard : IpShard) : Finset Nat :=
  (Finset.range shard.count).filter fun i => (shard.entries i).ip ≠ 0

/-- The number of slots that track an address. -/
def trackedEntries (limiter : Limiter) : Nat :=
  ∑ s ∈ Finset.range ipLimiterShards, (trackedSlots (limiter.shards s)).card

/-- `total_entries` is the number of slots that track an address, and at most 65536. -/
def EntriesCounted (limiter : Limiter) : Prop :=
  limiter.totalEntries.toNat = trackedEntries limiter ∧ limiter.totalEntries.toNat ≤ 65536

instance (limiter : Limiter) : Decidable (EntriesCounted limiter) :=
  inferInstanceAs (Decidable (_ ∧ _))

/-- The shard is within its bounds, and a slot marked for deletion tracks an address. -/
structure ShardNamed (shard : IpShard) : Prop where
  size_le : shard.count ≤ ipLimiterMaxEntriesPerShard
  named : ∀ i < shard.count, (shard.entries i).markedForDeletion = true → (shard.entries i).ip ≠ 0

variable {shard : IpShard} {i : Nat} {limiter : Limiter} {entry : IpEntry}

/-- A slot is tracked if it is in use and has an address. -/
theorem mem_tracked : i ∈ trackedSlots shard ↔ i < shard.count ∧ (shard.entries i).ip ≠ 0 := by
  simp [trackedSlots]

/-- The shard of an address exists. -/
theorem shard_index_lt (ip : UInt32) : getShardIndex ip < ipLimiterShards := by
  rw [getShardIndex, UInt32.toNat_and]
  exact lt_of_le_of_lt Nat.and_le_right (by decide)

/-- There are never more than 256 tracked slots in each of the 256 shards. -/
theorem tracked_entries_le (h : ∀ s, ShardNamed (limiter.shards s)) :
    trackedEntries limiter ≤ 65536 := by
  have hshard : ∀ s ∈ Finset.range ipLimiterShards,
      (trackedSlots (limiter.shards s)).card ≤ ipLimiterMaxEntriesPerShard := by
    intro s _
    calc (trackedSlots (limiter.shards s)).card
        ≤ (Finset.range (limiter.shards s).count).card := Finset.card_filter_le _ _
      _ = (limiter.shards s).count := Finset.card_range _
      _ ≤ ipLimiterMaxEntriesPerShard := (h s).size_le
  have hsum := Finset.sum_le_card_nsmul _ _ _ hshard
  rw [Finset.card_range] at hsum
  exact hsum

/-- Putting a shard in place changes the number of tracked slots by what it tracks more or
less. -/
theorem tracked_set_shard (limiter : Limiter) {s : Nat} (hs : s < ipLimiterShards)
    (shard : IpShard) :
    trackedEntries (limiter.setShard s shard) + (trackedSlots (limiter.shards s)).card =
      trackedEntries limiter + (trackedSlots shard).card := by
  have hmem := Finset.mem_range.mpr hs
  have hupdate : (fun s' => (trackedSlots ((limiter.setShard s shard).shards s')).card) =
      Function.update (fun s' => (trackedSlots (limiter.shards s')).card) s
        (trackedSlots shard).card := by
    funext s'
    by_cases heq : s' = s
    · subst heq
      simp [Limiter.setShard]
    · simp [Limiter.setShard, Function.update_of_ne heq]
  have hold := Finset.add_sum_erase _ (fun s' => (trackedSlots (limiter.shards s')).card) hmem
  rw [trackedEntries, trackedEntries, hupdate, Finset.sum_update_of_mem hmem, ← hold,
    Finset.sdiff_singleton_eq_erase]
  omega

/-- A slot rewritten with an address that stays on the same side of 0. -/
theorem tracked_set_same (h : entry.ip = 0 ↔ (shard.entries i).ip = 0) :
    trackedSlots (shard.set i entry) = trackedSlots shard := by
  ext j
  rw [mem_tracked, mem_tracked]
  by_cases hji : j = i
  · subst hji
    rw [set_entry_self, ne_eq, ne_eq, h]
    rfl
  · rw [set_entry_other shard hji]
    rfl

/-- A cleared slot that is given an address. -/
theorem tracked_set_cleared (hi : i < shard.count) (hcleared : (shard.entries i).ip = 0)
    (hentry : entry.ip ≠ 0) :
    (trackedSlots (shard.set i entry)).card = (trackedSlots shard).card + 1 := by
  have hinsert : trackedSlots (shard.set i entry) = insert i (trackedSlots shard) := by
    ext j
    rw [Finset.mem_insert, mem_tracked, mem_tracked]
    by_cases hji : j = i
    · subst hji
      rw [set_entry_self]
      exact iff_of_true ⟨hi, hentry⟩ (Or.inl rfl)
    · rw [set_entry_other shard hji]
      simp only [hji, false_or]
      rfl
  rw [hinsert, Finset.card_insert_of_notMem fun hmem => (mem_tracked.mp hmem).2 hcleared]

/-- A slot added with an address. -/
theorem tracked_append (shard : IpShard) (hentry : entry.ip ≠ 0) :
    (trackedSlots (IpShard.set { shard with count := shard.count + 1 } shard.count entry)).card =
      (trackedSlots shard).card + 1 := by
  have hinsert : trackedSlots (IpShard.set { shard with count := shard.count + 1 }
      shard.count entry) = insert shard.count (trackedSlots shard) := by
    ext j
    rw [Finset.mem_insert, mem_tracked, mem_tracked]
    by_cases hjn : j = shard.count
    · subst hjn
      rw [set_entry_self]
      exact iff_of_true ⟨Nat.lt_succ_self _, hentry⟩ (Or.inl rfl)
    · rw [set_entry_other _ hjn]
      simp only [hjn, false_or]
      show j < shard.count + 1 ∧ _ ↔ _
      exact and_congr_left fun _ => by omega
  rw [hinsert, Finset.card_insert_of_notMem fun hmem =>
    absurd (mem_tracked.mp hmem).1 (Nat.lt_irrefl _)]

/-- A slot is rewritten with an entry that has an address if it is marked. -/
theorem ShardNamed.set (h : ShardNamed shard) (i : Nat)
    (hentry : entry.markedForDeletion = true → entry.ip ≠ 0) : ShardNamed (shard.set i entry) where
  size_le := h.size_le
  named j hj hmark := by
    by_cases hji : j = i
    · subst hji
      rw [set_entry_self] at hmark ⊢
      exact hentry hmark
    · rw [set_entry_other shard hji] at hmark ⊢
      exact h.named j hj hmark

/-- A slot is added with an entry that is not marked. -/
theorem ShardNamed.append (h : ShardNamed shard)
    (hroom : shard.count < ipLimiterMaxEntriesPerShard) (hentry : entry.markedForDeletion = false) :
    ShardNamed (IpShard.set { shard with count := shard.count + 1 } shard.count entry) where
  size_le := hroom
  named j hj hmark := by
    by_cases hjn : j = shard.count
    · subst hjn
      rw [set_entry_self, hentry] at hmark
      cases hmark
    · rw [set_entry_other _ hjn] at hmark ⊢
      have hj : j < shard.count + 1 := hj
      exact h.named j (by omega) hmark

/-- A shard of the limiter is replaced. -/
theorem named_set_shard (h : ∀ s, ShardNamed (limiter.shards s)) (s : Nat)
    (hshard : ShardNamed shard) (s' : Nat) : ShardNamed ((limiter.setShard s shard).shards s') := by
  by_cases heq : s' = s
  · subst heq
    simpa [Limiter.setShard] using hshard
  · simpa [Limiter.setShard, Function.update_of_ne heq] using h s'

/-! ## The check -/

/-- A check on an address without a slot does not take the slot of another address: the first
idle slot of the shard, if there is one, is cleared. -/
def TakesNoEntry (limiter : Limiter) : IpCall → Prop
  | .check ip _ =>
      (∀ j < (limiter.shards (getShardIndex ip)).count,
        ((limiter.shards (getShardIndex ip)).entries j).ip ≠ ip) →
      ∀ i < (limiter.shards (getShardIndex ip)).count,
        ((limiter.shards (getShardIndex ip)).entries i).count = 0 →
        (∀ j < i, ((limiter.shards (getShardIndex ip)).entries j).count ≠ 0) →
        ((limiter.shards (getShardIndex ip)).entries i).ip = 0
  | _ => True

instance (limiter : Limiter) : ∀ call, Decidable (TakesNoEntry limiter call)
  | .check _ _ => inferInstanceAs (Decidable (_ → _))
  | .decrement _ => isTrue trivial
  | .compact _ => isTrue trivial

/-- What a check does to `total_entries` and to the tracked slots: both stay, both grow by one, or
only `total_entries` grows. -/
inductive EntryMove (before after : Limiter) (keeps : Prop) : Prop where
  | stays (hkeeps : keeps) (htotal : after.totalEntries = before.totalEntries)
      (htracked : trackedEntries after = trackedEntries before)
  | inserts (hkeeps : keeps) (htotal : after.totalEntries = before.totalEntries + 1)
      (htracked : trackedEntries after = trackedEntries before + 1)
  | replaces (hkeeps : ¬ keeps) (htotal : after.totalEntries = before.totalEntries + 1)
      (htracked : trackedEntries after = trackedEntries before)

/-- A rewrite of one slot of the shard of `ip` that leaves its address changes no tracked slot. -/
theorem tracked_rewrite (limiter : Limiter) (ip : UInt32)
    (hip : entry.ip = ((limiter.shards (getShardIndex ip)).entries i).ip) :
    trackedEntries (limiter.setShard (getShardIndex ip)
      ((limiter.shards (getShardIndex ip)).set i entry)) = trackedEntries limiter := by
  have hset := tracked_set_shard limiter (shard_index_lt ip)
    ((limiter.shards (getShardIndex ip)).set i entry)
  rw [tracked_set_same (by rw [hip])] at hset
  omega

/-- A check on an address with a slot. -/
theorem check_found_moves (limiter : Limiter) (ip : UInt32) (i : Nat) (now : UInt64)
    {keeps : Prop} (hkeeps : keeps) :
    EntryMove limiter
      (checkFound limiter (getShardIndex ip) (limiter.shards (getShardIndex ip)) i now).2.2
      keeps := by
  simp only [checkFound]
  split
  · exact .stays hkeeps rfl (tracked_rewrite limiter ip (revive_ip _))
  · exact .stays hkeeps rfl (tracked_rewrite limiter ip (revive_ip _))

/-- `ip_limiter_check_and_increment` keeps the balance if it takes no slot from another
address. -/
theorem check_moves (limiter : Limiter) {ip : UInt32} (hip : ip ≠ 0) (now : UInt64) :
    EntryMove limiter (ipLimiterCheckAndIncrement limiter ip now).2.2
      (TakesNoEntry limiter (.check ip now)) := by
  have hmove := tracked_set_shard limiter (shard_index_lt ip)
  have hentry : (freshEntry ip now).ip ≠ 0 := hip
  have hbranch := check_branch limiter ip now
  generalize ipLimiterCheckAndIncrement limiter ip now = outcome at hbranch ⊢
  cases hbranch with
  | found i hslot =>
      obtain ⟨hi, hkey, _⟩ := slot_of_some hslot
      exact check_found_moves limiter ip i now fun habsent => absurd hkey (habsent i hi)
  | reused i hslot hi hidle hfirst =>
      have hset := hmove ((limiter.shards (getShardIndex ip)).set i (freshEntry ip now))
      by_cases hcleared : ((limiter.shards (getShardIndex ip)).entries i).ip = 0
      · refine .inserts ?_ rfl ?_
        · intro _ i' hi' hidle' hfirst'
          -- the first idle slot is one slot
          rcases Nat.lt_trichotomy i i' with hlt | rfl | hlt
          · exact absurd hidle (hfirst' i hlt)
          · exact hcleared
          · exact absurd hidle' (hfirst i' hlt)
        · rw [tracked_set_cleared hi hcleared hentry] at hset
          show trackedEntries (limiter.setShard _ _) = _
          omega
      · refine .replaces (fun hkeeps => ?_) rfl ?_
        · exact hcleared (hkeeps (slot_of_none hslot) i hi hidle hfirst)
        · rw [tracked_set_same (iff_of_false hip hcleared)] at hset
          show trackedEntries (limiter.setShard _ _) = _
          omega
  | added hslot hbusy hroom =>
      refine .inserts (fun _ i hi hidle => absurd hidle (hbusy i hi)) rfl ?_
      have hset := hmove (IpShard.set
        ⟨(limiter.shards (getShardIndex ip)).entries,
          (limiter.shards (getShardIndex ip)).count + 1⟩
        (limiter.shards (getShardIndex ip)).count (freshEntry ip now))
      rw [tracked_append (limiter.shards (getShardIndex ip)) hentry] at hset
      show trackedEntries (limiter.setShard _ _) = _
      omega
  | full hslot hbusy hfull =>
      exact .stays (fun _ i hi hidle => absurd hidle (hbusy i hi)) rfl rfl

/-- `ip_limiter_check_and_increment` marks no slot without an address. -/
theorem check_named (h : ∀ s, ShardNamed (limiter.shards s)) (ip : UInt32) (now : UInt64)
    (s : Nat) : ShardNamed ((ipLimiterCheckAndIncrement limiter ip now).2.2.shards s) := by
  have hshard := h (getShardIndex ip)
  have hbranch := check_branch limiter ip now
  generalize ipLimiterCheckAndIncrement limiter ip now = outcome at hbranch ⊢
  cases hbranch with
  | found i hslot =>
      simp only [checkFound]
      split
      · exact named_set_shard h _ (hshard.set _ (by simp [revive_marked])) s
      · exact named_set_shard h _ (hshard.set _ (by simp [revive_marked])) s
  | reused i hslot hi hidle hfirst =>
      exact named_set_shard h _ (hshard.set _ (by simp [freshEntry])) s
  | added hslot hbusy hroom => exact named_set_shard h _ (hshard.append hroom rfl) s
  | full hslot hbusy hfull => exact h s

/-! ## The decrement -/

/-- `ip_limiter_decrement` changes neither `total_entries` nor a tracked slot. -/
theorem decrement_moves (limiter : Limiter) (ip : UInt32) :
    (ipLimiterDecrement limiter ip).totalEntries = limiter.totalEntries ∧
      trackedEntries (ipLimiterDecrement limiter ip) = trackedEntries limiter := by
  simp only [ipLimiterDecrement]
  split
  · exact ⟨rfl, tracked_rewrite limiter ip rfl⟩
  · exact ⟨rfl, rfl⟩

/-- Nor does `ip_limiter_decrement`, for an address that is not 0. -/
theorem decrement_named (h : ∀ s, ShardNamed (limiter.shards s)) {ip : UInt32} (hip : ip ≠ 0)
    (s : Nat) : ShardNamed ((ipLimiterDecrement limiter ip).shards s) := by
  simp only [ipLimiterDecrement]
  split
  · rename_i i hslot
    obtain ⟨_, hkey, _⟩ := slot_of_some hslot
    refine named_set_shard h _ ((h _).set i fun _ => ?_) s
    show ((limiter.shards (getShardIndex ip)).entries i).ip ≠ 0
    rwa [hkey]
  · exact h s

/-! ## The compaction -/

/-- One round of the outer loop removes tracked slots only, and counts them. -/
theorem compact_shard_moves (h : ShardNamed shard) (now : UInt64) :
    (trackedSlots (compactShard now shard).2).card + (compactShard now shard).1 =
      (trackedSlots shard).card := by
  set removed := (trackedSlots shard).filter fun i => expired now (shard.entries i)
  have hremoved : (compactShard now shard).1 = removed.card := by
    have hfilter : removed =
        (Finset.range shard.count).filter fun i => expired now (shard.entries i) := by
      ext i
      simp only [removed, Finset.mem_filter, mem_tracked, Finset.mem_range]
      constructor
      · rintro ⟨⟨hi, _⟩, hexpired⟩
        exact ⟨hi, hexpired⟩
      · rintro ⟨hi, hexpired⟩
        exact ⟨⟨hi, h.named i hi hexpired.1⟩, hexpired⟩
    rw [compact_shard_eq, hfilter, List.countP_eq_length_filter]
    rfl
  have hkept : trackedSlots (compactShard now shard).2 = trackedSlots shard \ removed := by
    ext i
    simp only [compact_shard_eq, removed, mem_tracked, Finset.mem_sdiff, Finset.mem_filter]
    by_cases hall : ∀ i < shard.count, expired now (shard.entries i)
    · rw [if_pos hall]
      refine iff_of_false (fun hi => Nat.not_lt_zero i hi.1) ?_
      rintro ⟨hi, hnot⟩
      exact hnot ⟨hi, hall i hi.1⟩
    · rw [if_neg hall]
      by_cases hi : i < shard.count
      · simp only [hi, if_true, true_and, sweepEntry]
        split
        · rename_i hexpired
          simp [clearEntry, hexpired]
        · rename_i hexpired
          simp [hexpired]
      · simp [hi]
  rw [hremoved, hkept, Finset.card_sdiff_add_card_eq_card (Finset.filter_subset _ _)]

/-- Nor does the compaction of a shard. -/
theorem compact_shard_named (h : ShardNamed shard) (now : UInt64) :
    ShardNamed (compactShard now shard).2 := by
  rw [compact_shard_eq]
  constructor
  · show (if _ then 0 else shard.count) ≤ _
    split
    · exact Nat.zero_le _
    · exact h.size_le
  · intro i hi hmark
    have hi : i < shard.count := by
      have hi : i < if _ then 0 else shard.count := hi
      split at hi
      · exact absurd hi (Nat.not_lt_zero i)
      · exact hi
    simp only [if_pos hi] at hmark ⊢
    have hkept := sweep_marked hmark
    rw [hkept] at hmark ⊢
    exact h.named i hi hmark

/-- `ip_limiter_compact` takes from `total_entries` as many as it clears. -/
theorem compact_moves (h : ∀ s, ShardNamed (limiter.shards s)) (now : UInt64) :
    ∃ removed, (ipLimiterCompact limiter now).totalEntries =
        limiter.totalEntries - UInt64.ofNat removed ∧
      trackedEntries (ipLimiterCompact limiter now) + removed = trackedEntries limiter := by
  simp only [ipLimiterCompact]
  split
  · exact ⟨0, by simp, Nat.add_zero _⟩
  · refine ⟨_, rfl, ?_⟩
    rw [← List.sum_toFinset _ List.nodup_range, List.toFinset_range, trackedEntries,
      ← Finset.sum_add_distrib]
    exact Finset.sum_congr rfl fun s _ => compact_shard_moves (h s) now

/-! ## Runs -/

/-- Nor does any call. -/
theorem step_named {call : IpCall} (hcall : call.NonZero) (h : ∀ s, ShardNamed (limiter.shards s))
    (s : Nat) : ShardNamed ((limiter.step call).2.shards s) := by
  cases call with
  | check ip now => exact check_named h ip now s
  | decrement ip => exact decrement_named h hcall s
  | compact now =>
      simp only [Limiter.step, ipLimiterCompact]
      split
      · exact h s
      · exact compact_shard_named (h s) now

/-- From a state in which `total_entries` is right, a call leaves it right exactly when it takes
no slot from another address. -/
theorem step_counted_iff {call : IpCall} (hcall : call.NonZero)
    (h : ∀ s, ShardNamed (limiter.shards s)) (hcounted : EntriesCounted limiter) :
    EntriesCounted (limiter.step call).2 ↔ TakesNoEntry limiter call := by
  have hbound := tracked_entries_le (step_named hcall h)
  obtain ⟨heq, hle⟩ := hcounted
  cases call with
  | check ip now =>
      have hsucc : (limiter.totalEntries + 1).toNat = limiter.totalEntries.toNat + 1 := by
        rw [UInt64.toNat_add, UInt64.toNat_one, Nat.mod_eq_of_lt (by omega)]
      simp only [Limiter.step, EntriesCounted] at hbound ⊢
      cases check_moves limiter hcall now with
      | stays hkeeps htotal htracked =>
          rw [htotal, htracked]
          exact iff_of_true ⟨heq, hle⟩ hkeeps
      | inserts hkeeps htotal htracked =>
          rw [htracked] at hbound
          rw [htotal, htracked, hsucc]
          exact iff_of_true ⟨by omega, by omega⟩ hkeeps
      | replaces hkeeps htotal htracked =>
          rw [htotal, htracked, hsucc]
          exact iff_of_false (fun hall => by omega) hkeeps
  | decrement ip =>
      obtain ⟨htotal, htracked⟩ := decrement_moves limiter ip
      simp only [Limiter.step, EntriesCounted, htotal, htracked]
      exact iff_of_true ⟨heq, hle⟩ trivial
  | compact now =>
      obtain ⟨removed, htotal, htracked⟩ := compact_moves h now
      have hremoved : (UInt64.ofNat removed).toNat = removed :=
        UInt64.toNat_ofNat_of_lt' (lt_of_le_of_lt (show removed ≤ 65536 by omega) (by decide))
      have hsmall : UInt64.ofNat removed ≤ limiter.totalEntries := by
        rw [UInt64.le_iff_toNat_le, hremoved]
        omega
      have hless : (limiter.totalEntries - UInt64.ofNat removed).toNat =
          limiter.totalEntries.toNat - removed := by
        rw [UInt64.toNat_sub_of_le _ _ hsmall, hremoved]
      simp only [Limiter.step, EntriesCounted, htotal, hless]
      exact iff_of_true ⟨by omega, by omega⟩ trivial

/-- A fresh limiter has no entries. -/
theorem init_entries {limit : UInt32} {now : UInt64}
    (hinit : ipLimiterInit limit now = some limiter) :
    (∀ s, ShardNamed (limiter.shards s)) ∧ EntriesCounted limiter := by
  unfold ipLimiterInit at hinit
  split at hinit
  · cases hinit
  · cases hinit
    refine ⟨fun s => ⟨Nat.zero_le _, fun i hi => absurd hi (Nat.not_lt_zero i)⟩, ?_, ?_⟩
    · exact (Finset.sum_eq_zero fun s _ => rfl).symm
    · exact Nat.zero_le _

/-- All along a run over non-zero addresses, `total_entries` is the number of slots that track an
address, and at most 65536, if and only if no check of the run takes the slot of another
address. -/
theorem total_entries_iff {limit : UInt32} {start : UInt64} {fresh : Limiter}
    (hinit : ipLimiterInit limit start = some fresh) {calls : List IpCall}
    (hcalls : ∀ call ∈ calls, IpCall.NonZero call) :
    (∀ done, done <+: calls → EntriesCounted (after Limiter.step fresh done)) ↔
      Along Limiter.step TakesNoEntry fresh calls := by
  obtain ⟨hnamed, hcounted⟩ := init_entries hinit
  exact forall_after_iff_along (fun limiter call hcall h => step_named hcall h)
    (fun limiter call hcall h hright => step_counted_iff hcall h hright) hcalls hnamed hcounted

/-- Addresses 7 and 416, of one shard, connect; 7 leaves, is cleared by a compaction, and comes
back. -/
def settledCalls : List IpCall :=
  [.check 7 0, .check 416 0, .decrement 7, .compact 70000000000, .check 7 70000000000]

/-- Calls that take no slot from another address. -/
theorem settled_calls_counted :
    ∃ fresh, ipLimiterInit 10 0 = some fresh ∧
      EntriesCounted (after Limiter.step fresh settledCalls) := by
  obtain ⟨fresh, hinit⟩ : ∃ fresh, ipLimiterInit 10 0 = some fresh := ⟨_, rfl⟩
  refine ⟨fresh, hinit, (total_entries_iff hinit (by decide)).mpr ?_ settledCalls
    (List.prefix_refl _)⟩
  cases hinit
  decide +kernel

/-- Address 7 connects and leaves, and 416, of the same shard, takes its slot. -/
def takingCalls : List IpCall := [.check 7 0, .decrement 7, .check 416 1]

/-- One slot tracks an address, and `total_entries` is 2. -/
theorem taking_calls_miscounted :
    ∃ fresh, ipLimiterInit 10 0 = some fresh ∧ (∀ call ∈ takingCalls, IpCall.NonZero call) ∧
      Disciplined (trace Limiter.step fresh takingCalls) ∧
      (after Limiter.step fresh takingCalls).totalEntries = 2 ∧
      trackedEntries (after Limiter.step fresh takingCalls) = 1 := by
  obtain ⟨fresh, hinit⟩ : ∃ fresh, ipLimiterInit 10 0 = some fresh := ⟨_, rfl⟩
  refine ⟨fresh, hinit, by decide, ?_⟩
  cases hinit
  exact ⟨disciplined_of_inits (by decide +kernel), by decide +kernel, by decide +kernel⟩

end Emme.IpLimiter
