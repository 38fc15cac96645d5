import Emme.IpLimiter.Limiter

/-!
# The operations of the limiter

A shard may hold the loads of its addresses in more than one way; `ShardLaws valid holds` lists what
a way has to satisfy. From the laws alone, a check is answered by the loads and counts what it
admits (`check_keeps`), and a decrement takes one away (`decrement_keeps`).
-/

namespace Emme.IpLimiter

/-- The loads of the addresses of shard `s`. -/
def shardLoad (load : UInt32 → Nat) (s : Nat) (ip : UInt32) : Nat :=
  if getShardIndex ip = s then load ip else 0

/-- The addresses of shard `s` that hold a connection. -/
def activeIn (load : UInt32 → Nat) (s : Nat) : Set UInt32 :=
  {ip | getShardIndex ip = s ∧ 0 < load ip}

/-- The load under which a check on `ip` is to be answered `IP_LIMITER_OK`. -/
def Admits (limiter : Limiter) (load : UInt32 → Nat) (ip : UInt32) : Prop :=
  load ip < limiter.defaultLimit.toNat ∧
    (0 < load ip ∨ (activeIn load (getShardIndex ip)).ncard < ipLimiterMaxEntriesPerShard)

/-! ## Loads -/

/-- The load of an address in its own shard. -/
theorem shard_load_self (load : UInt32 → Nat) (ip : UInt32) :
    shardLoad load (getShardIndex ip) ip = load ip := by
  simp [shardLoad]

/-- The addresses with a load in a shard are those that hold a connection there. -/
theorem shard_load_active (load : UInt32 → Nat) (s : Nat) :
    {ip | 0 < shardLoad load s ip} = activeIn load s := by
  ext ip
  simp only [shardLoad, activeIn, Set.mem_ofPred_eq]
  split <;> simp_all

/-- Changing the load of an address changes the loads of its own shard only. -/
theorem shard_load_update_self (load : UInt32 → Nat) (ip : UInt32) (value : Nat) :
    shardLoad (Function.update load ip value) (getShardIndex ip) =
      Function.update (shardLoad load (getShardIndex ip)) ip value := by
  funext ip'
  by_cases heq : ip' = ip
  · subst heq
    simp [shardLoad]
  · simp [shardLoad, Function.update_of_ne heq]

variable {ip : UInt32} {i : Nat} {shard : IpShard} {entry : IpEntry} {slots : List Nat}

/-- A change of a load leaves the other shards alone. -/
theorem shard_load_update_other (load : UInt32 → Nat) {s : Nat} (hs : getShardIndex ip ≠ s)
    (value : Nat) : shardLoad (Function.update load ip value) s = shardLoad load s := by
  funext ip'
  by_cases heq : ip' = ip
  · subst heq
    simp [shardLoad, hs]
  · simp [shardLoad, Function.update_of_ne heq]

/-- A load within the bound is replaced by another. -/
theorem update_load_le {load : UInt32 → Nat} {bound : Nat} (h : ∀ ip, load ip ≤ bound)
    (ip : UInt32) {value : Nat} (hvalue : value ≤ bound) (ip' : UInt32) :
    Function.update load ip value ip' ≤ bound := by
  by_cases heq : ip' = ip
  · rw [heq, Function.update_self]
    exact hvalue
  · rw [Function.update_of_ne heq]
    exact h ip'

/-! ## Slots -/

/-- The slot that was written. -/
theorem set_entry_self (shard : IpShard) (i : Nat) (entry : IpEntry) :
    (shard.set i entry).entries i = entry := by
  simp [IpShard.set]

/-- The slots that were not written. -/
theorem set_entry_other (shard : IpShard) {j : Nat} (hji : j ≠ i) (entry : IpEntry) :
    (shard.set i entry).entries j = shard.entries j := by
  simp [IpShard.set, Function.update_of_ne hji]

/-- The addresses after a write. -/
theorem set_ip (shard : IpShard) (i : Nat) (entry : IpEntry) :
    (fun j => ((shard.set i entry).entries j).ip) =
      Function.update (fun j => (shard.entries j).ip) i entry.ip := by
  funext j
  by_cases hji : j = i
  · subst hji
    simp [IpShard.set]
  · simp [IpShard.set, Function.update_of_ne hji]

/-- Rewriting a slot for the address it holds. -/
theorem set_ip_same (h : (shard.entries i).ip = entry.ip) :
    (fun j => ((shard.set i entry).entries j).ip) = fun j => (shard.entries j).ip := by
  rw [set_ip]
  exact Function.update_eq_self_iff.mpr h.symm

/-- The counters after a write. -/
theorem set_count (shard : IpShard) (i : Nat) (entry : IpEntry) :
    (fun j => ((shard.set i entry).entries j).count.toNat) =
      Function.update (fun j => (shard.entries j).count.toNat) i entry.count.toNat := by
  funext j
  by_cases hji : j = i
  · subst hji
    simp [IpShard.set]
  · simp [IpShard.set, Function.update_of_ne hji]

/-- Writing slot `i` keeps the marks on idle slots if the written entry does. -/
theorem set_marked (h : ∀ j < shard.count, (shard.entries j).markedForDeletion = true →
      (shard.entries j).count = 0) (i : Nat)
    (hentry : entry.markedForDeletion = true → entry.count = 0) :
    ∀ j < (shard.set i entry).count, ((shard.set i entry).entries j).markedForDeletion = true →
      ((shard.set i entry).entries j).count = 0 := by
  intro j hj hmark
  by_cases hji : j = i
  · subst hji
    rw [set_entry_self] at hmark ⊢
    exact hentry hmark
  · rw [set_entry_other shard hji] at hmark ⊢
    exact h j hj hmark

/-- A slot added with a fresh entry keeps the marks on idle slots. -/
theorem append_marked (h : ∀ j < shard.count, (shard.entries j).markedForDeletion = true →
      (shard.entries j).count = 0) (ip : UInt32) (now : UInt64) :
    ∀ j < shard.count + 1,
      (((IpShard.set { shard with count := shard.count + 1 } shard.count
        (freshEntry ip now)).entries j).markedForDeletion = true →
      ((IpShard.set { shard with count := shard.count + 1 } shard.count
        (freshEntry ip now)).entries j).count = 0) := by
  intro j hj hmark
  by_cases hjn : j = shard.count
  · subst hjn
    rw [set_entry_self] at hmark
    simp [freshEntry] at hmark
  · rw [set_entry_other _ hjn] at hmark ⊢
    exact h j (by omega) hmark

/-- Taking back a mark does not change the counter if marks are on idle slots. -/
theorem revive_count (h : entry.markedForDeletion = true → entry.count = 0) :
    (reviveEntry entry).count = entry.count := by
  unfold reviveEntry
  split
  · rename_i hmark
    exact (h hmark).symm
  · rfl

/-- An entry keeps its address when its mark is taken away. -/
theorem revive_ip (entry : IpEntry) : (reviveEntry entry).ip = entry.ip := by
  unfold reviveEntry
  split <;> rfl

/-- An entry whose mark has been taken away is not marked. -/
theorem revive_marked (entry : IpEntry) : (reviveEntry entry).markedForDeletion = false := by
  unfold reviveEntry
  split
  · rfl
  · rename_i hmark
    exact Bool.eq_false_iff.mpr hmark

/-- Taking one connection from a busy slot; the mark is set when it was the last. -/
theorem decrement_entry_spec (hpos : 0 < entry.count.toNat)
    (hmark : entry.markedForDeletion = true → entry.count = 0) :
    (decrementEntry entry).count.toNat = entry.count.toNat - 1 ∧
      ((decrementEntry entry).markedForDeletion = true → (decrementEntry entry).count = 0) := by
  have hone : (1 : UInt32) ≤ entry.count := by
    rw [UInt32.le_iff_toNat_le, UInt32.toNat_one]
    omega
  have hcount : (entry.count - 1).toNat = entry.count.toNat - 1 := by
    rw [UInt32.toNat_sub_of_le _ _ hone, UInt32.toNat_one]
  refine ⟨hcount, fun hset => ?_⟩
  show entry.count - 1 = 0
  rw [← UInt32.toNat_inj, hcount, UInt32.toNat_zero]
  simp only [decrementEntry] at hset
  split at hset
  · rename_i hlast
    rw [UInt32.le_iff_toNat_le, UInt32.toNat_one] at hlast
    omega
  · have hzero := hmark hset
    rw [hzero, UInt32.toNat_zero]

/-! ## The loops -/

/-- The slot at which the loops over a shard stop: the first one with the address. -/
def slotOf (shard : IpShard) (ip : UInt32) : Option Nat :=
  (List.range shard.count).find? fun i => (shard.entries i).ip = ip

/-- The search finds the first slot in use with the address. -/
theorem slot_of_some (h : slotOf shard ip = some i) :
    i < shard.count ∧ (shard.entries i).ip = ip ∧ ∀ j < i, (shard.entries j).ip ≠ ip := by
  rw [slotOf, List.find?_range_eq_some] at h
  obtain ⟨hip, hi, hbefore⟩ := h
  exact ⟨List.mem_range.mp hi, by simpa using hip, by simpa using hbefore⟩

/-- If the search finds nothing, no slot in use has the address. -/
theorem slot_of_none (h : slotOf shard ip = none) :
    ∀ i < shard.count, (shard.entries i).ip ≠ ip := by
  intro i hi
  simpa using List.find?_eq_none.mp h i (List.mem_range.mpr hi)

/-- The first loop of the check looks for the same slot as the loop of the decrement. -/
theorem find_slot_fst (shard : IpShard) (ip : UInt32) (slots : List Nat)
    (emptySlot : Option Nat) :
    (findSlot shard ip slots emptySlot).1 = slots.find? fun i => (shard.entries i).ip = ip := by
  induction slots generalizing emptySlot with
  | nil => rfl
  | cons i slots ih =>
      rw [findSlot]
      by_cases hip : (shard.entries i).ip = ip
      · rw [if_pos hip, List.find?_cons_of_pos (by simpa using hip)]
      · rw [if_neg hip, List.find?_cons_of_neg (by simpa using hip)]
        split
        all_goals exact ih _

/-- When the first loop of the check finds no slot of the address, it reports the first idle
one. -/
theorem find_slot_snd {emptySlot emptySlot' : Option Nat}
    (h : findSlot shard ip slots emptySlot = (none, emptySlot')) :
    emptySlot' = emptySlot.or (slots.find? fun i => (shard.entries i).count = 0) := by
  induction slots generalizing emptySlot with
  | nil =>
      rw [findSlot, Prod.mk.injEq] at h
      simp [h.2]
  | cons i slots ih =>
      rw [findSlot] at h
      split at h
      · cases h
      · split at h
        · rename_i hidle
          rw [ih h, hidle.2, List.find?_cons_of_pos (by simpa using hidle.1)]
          rfl
        · rename_i hbusy
          rw [ih h]
          cases emptySlot with
          | some first => rfl
          | none =>
              rw [List.find?_cons_of_neg]
              simpa using hbusy

/-- The second loop finds nothing among busy slots. -/
theorem find_oldest_busy (h : ∀ i ∈ slots, (shard.entries i).count ≠ 0) (oldest : Option Nat)
    (oldestTime : UInt64) : findOldest shard slots oldest oldestTime = oldest := by
  induction slots with
  | nil => rfl
  | cons j slots ih =>
      rw [findOldest, if_neg fun hidle => h j List.mem_cons_self hidle.1]
      exact ih fun i hi => h i (List.mem_cons_of_mem j hi)

/-- The branches of `ip_limiter_check_and_increment`: the address has a slot; it has none and is
given the first idle one, or a new one, or it is rejected. -/
inductive CheckBranch (limiter : Limiter) (ip : UInt32) (now : UInt64) (shard : IpShard) :
    IpLimiterResult × UInt32 × Limiter → Prop where
  | found (i : Nat) (hslot : slotOf shard ip = some i) :
      CheckBranch limiter ip now shard (checkFound limiter (getShardIndex ip) shard i now)
  | reused (i : Nat) (hslot : slotOf shard ip = none) (hi : i < shard.count)
      (hidle : (shard.entries i).count = 0) (hfirst : ∀ j < i, (shard.entries j).count ≠ 0) :
      CheckBranch limiter ip now shard
        (.ok, 1,
          { limiter.setShard (getShardIndex ip) (shard.set i (freshEntry ip now)) with
            totalEntries := limiter.totalEntries + 1 })
  | added (hslot : slotOf shard ip = none) (hbusy : ∀ i < shard.count, (shard.entries i).count ≠ 0)
      (hroom : shard.count < ipLimiterMaxEntriesPerShard) :
      CheckBranch limiter ip now shard
        (.ok, 1,
          { limiter.setShard (getShardIndex ip)
              (IpShard.set { shard with count := shard.count + 1 } shard.count
                (freshEntry ip now)) with
            totalEntries := limiter.totalEntries + 1 })
  | full (hslot : slotOf shard ip = none) (hbusy : ∀ i < shard.count, (shard.entries i).count ≠ 0)
      (hfull : ipLimiterMaxEntriesPerShard ≤ shard.count) :
      CheckBranch limiter ip now shard
        (.rejected, limiter.defaultLimit,
          { limiter with rejectionsTotal := limiter.rejectionsTotal + 1 })

/-- The second loop of the check finds nothing the first has not found, so that no branch takes
the slot that was seen longest ago. -/
theorem check_branch (limiter : Limiter) (ip : UInt32) (now : UInt64) :
    CheckBranch limiter ip now (limiter.shards (getShardIndex ip))
      (ipLimiterCheckAndIncrement limiter ip now) := by
  set shard := limiter.shards (getShardIndex ip) with hshard
  have hslot := find_slot_fst shard ip (List.range shard.count) none
  simp only [ipLimiterCheckAndIncrement, ← hshard]
  split
  · rename_i i _ hfound
    rw [hfound] at hslot
    exact .found i hslot.symm
  · rename_i i hfound
    have hidle := find_slot_snd hfound
    rw [hfound] at hslot
    rw [Option.none_or, eq_comm, List.find?_range_eq_some] at hidle
    obtain ⟨hidle, hi, hfirst⟩ := hidle
    exact .reused i hslot.symm (List.mem_range.mp hi) (by simpa using hidle) (by simpa using hfirst)
  · rename_i hfound
    have hidle := find_slot_snd hfound
    rw [hfound] at hslot
    have hbusy : ∀ i ∈ List.range shard.count, (shard.entries i).count ≠ 0 := by
      rw [Option.none_or, eq_comm, List.find?_eq_none] at hidle
      simpa using hidle
    have hbusy' := fun i hi => hbusy i (List.mem_range.mpr hi)
    split
    · rename_i hroom
      exact .added hslot.symm hbusy' hroom
    · rename_i hfull
      simp only [checkAbsent, find_oldest_busy hbusy]
      exact .full hslot.symm hbusy' (Nat.le_of_not_lt hfull)

/-! ## Shards that hold loads -/

/-- What the operations need of a way in which the slots of a shard hold loads. -/
structure ShardLaws (valid : UInt32 → Prop) (holds : Nat → IpShard → (UInt32 → Nat) → Prop) :
    Prop where
  marked {s : Nat} {shard : IpShard} {load : UInt32 → Nat} (h : holds s shard load) :
    ∀ i < shard.count, (shard.entries i).markedForDeletion = true → (shard.entries i).count = 0
  congr {s : Nat} {shard : IpShard} {load load' : UInt32 → Nat} (h : holds s shard load)
    (hload : shardLoad load' s = shardLoad load s) : holds s shard load'
  active_lt_iff {s : Nat} {shard : IpShard} {load : UInt32 → Nat} (h : holds s shard load) :
    (activeIn load s).ncard < ipLimiterMaxEntriesPerShard ↔
      shard.count < ipLimiterMaxEntriesPerShard ∨ ∃ i < shard.count, (shard.entries i).count = 0
  count_of_slot {shard : IpShard} {load : UInt32 → Nat} {ip : UInt32} {i : Nat}
    (h : holds (getShardIndex ip) shard load) (hip : valid ip) (hslot : slotOf shard ip = some i) :
    (shard.entries i).count.toNat = load ip
  load_of_absent {shard : IpShard} {load : UInt32 → Nat} {ip : UInt32}
    (h : holds (getShardIndex ip) shard load) (hslot : slotOf shard ip = none) : load ip = 0
  rewrite {shard : IpShard} {load : UInt32 → Nat} {ip : UInt32} {i : Nat} {entry : IpEntry}
    (h : holds (getShardIndex ip) shard load) (hip : valid ip) (hslot : slotOf shard ip = some i)
    (hentry : entry.ip = ip) (hmark : entry.markedForDeletion = true → entry.count = 0) :
    holds (getShardIndex ip) (shard.set i entry) (Function.update load ip entry.count.toNat)
  reuse {shard : IpShard} {load : UInt32 → Nat} {ip : UInt32} {i : Nat}
    (h : holds (getShardIndex ip) shard load) (hip : valid ip) (hslot : slotOf shard ip = none)
    (hi : i < shard.count) (hidle : (shard.entries i).count = 0) (now : UInt64) :
    holds (getShardIndex ip) (shard.set i (freshEntry ip now)) (Function.update load ip 1)
  append {shard : IpShard} {load : UInt32 → Nat} {ip : UInt32}
    (h : holds (getShardIndex ip) shard load) (hip : valid ip) (hslot : slotOf shard ip = none)
    (hroom : shard.count < ipLimiterMaxEntriesPerShard) (now : UInt64) :
    holds (getShardIndex ip)
      (IpShard.set { shard with count := shard.count + 1 } shard.count (freshEntry ip now))
      (Function.update load ip 1)

/-- Every shard holds its loads, and no load exceeds the limit. -/
structure LimiterKeeps (holds : Nat → IpShard → (UInt32 → Nat) → Prop) (limiter : Limiter)
    (load : UInt32 → Nat) : Prop where
  shards : ∀ s, holds s (limiter.shards s) load
  load_le : ∀ ip, load ip ≤ limiter.defaultLimit.toNat
  limit_pos : 0 < limiter.defaultLimit.toNat
  limit_le : limiter.defaultLimit.toNat ≤ 10000

section Laws

variable {valid : UInt32 → Prop} {holds : Nat → IpShard → (UInt32 → Nat) → Prop}
  {limiter : Limiter} {load : UInt32 → Nat} {ip : UInt32}

/-- Putting a shard in place of the one of `ip` when only `ip` changes its load. -/
theorem ShardLaws.set_shard (laws : ShardLaws valid holds) (h : LimiterKeeps holds limiter load)
    {value : Nat} (hvalue : value ≤ limiter.defaultLimit.toNat)
    (hshard : holds (getShardIndex ip) shard (Function.update load ip value)) :
    LimiterKeeps holds (limiter.setShard (getShardIndex ip) shard)
      (Function.update load ip value) where
  shards s := by
    by_cases hs : s = getShardIndex ip
    · subst hs
      simpa [Limiter.setShard] using hshard
    · simp only [Limiter.setShard, Function.update_of_ne hs]
      exact laws.congr (h.shards s) (shard_load_update_other load (Ne.symm hs) value)
  load_le := update_load_le h.load_le ip hvalue
  limit_pos := h.limit_pos
  limit_le := h.limit_le

/-- The condition of `Admits` on the shard, read off its slots. -/
theorem ShardLaws.admits_iff (laws : ShardLaws valid holds) (h : LimiterKeeps holds limiter load) :
    Admits limiter load ip ↔ load ip < limiter.defaultLimit.toNat ∧
      (0 < load ip ∨
        (limiter.shards (getShardIndex ip)).count < ipLimiterMaxEntriesPerShard ∨
        ∃ i < (limiter.shards (getShardIndex ip)).count,
          ((limiter.shards (getShardIndex ip)).entries i).count = 0) := by
  rw [Admits, laws.active_lt_iff (h.shards (getShardIndex ip))]

/-- What a check is to answer and do: admit the connection and count it, or reject it with the
limit as the count, record the rejection and leave every counter alone. -/
structure CheckKeeps (holds : Nat → IpShard → (UInt32 → Nat) → Prop) (limiter : Limiter)
    (load : UInt32 → Nat) (ip : UInt32) (outcome : IpLimiterResult × UInt32 × Limiter) : Prop where
  admitted : Admits limiter load ip → outcome.1 = .ok ∧ outcome.2.1.toNat = load ip + 1 ∧
    LimiterKeeps holds outcome.2.2 (Function.update load ip (load ip + 1))
  rejected : ¬ Admits limiter load ip → outcome.1 = .rejected ∧
    outcome.2.1 = limiter.defaultLimit ∧
    outcome.2.2.rejectionsTotal = limiter.rejectionsTotal + 1 ∧
    (∀ s i, ((outcome.2.2.shards s).entries i).count = ((limiter.shards s).entries i).count) ∧
    LimiterKeeps holds outcome.2.2 load
  limit_eq : outcome.2.2.defaultLimit = limiter.defaultLimit

/-- Rewriting a slot with its own counter changes no counter. -/
theorem set_shard_count (limiter : Limiter) {s : Nat}
    (hentry : entry.count = ((limiter.shards s).entries i).count) (s' j : Nat) :
    (((limiter.setShard s ((limiter.shards s).set i entry)).shards s').entries j).count =
      ((limiter.shards s').entries j).count := by
  by_cases hs : s' = s
  · subst hs
    by_cases hji : j = i
    · subst hji
      simp [Limiter.setShard, set_entry_self, hentry]
    · simp [Limiter.setShard, set_entry_other _ hji]
  · simp [Limiter.setShard, Function.update_of_ne hs]

/-- The check on an address that has a slot. -/
theorem ShardLaws.check_found (laws : ShardLaws valid holds) (h : LimiterKeeps holds limiter load)
    (hip : valid ip) (now : UInt64)
    (hslot : slotOf (limiter.shards (getShardIndex ip)) ip = some i) :
    CheckKeeps holds limiter load ip
      (checkFound limiter (getShardIndex ip) (limiter.shards (getShardIndex ip)) i now) := by
  have hshard := h.shards (getShardIndex ip)
  obtain ⟨hi, hkey, _⟩ := slot_of_some hslot
  have hrev := revive_count (laws.marked hshard i hi)
  have hcount := laws.count_of_slot hshard hip hslot
  rw [← hrev] at hcount
  have hlimit := h.limit_le
  have hle := h.load_le ip
  have hkey' := (revive_ip ((limiter.shards (getShardIndex ip)).entries i)).trans hkey
  by_cases hfull : limiter.defaultLimit ≤
      (reviveEntry ((limiter.shards (getShardIndex ip)).entries i)).count
  · rw [show checkFound _ _ _ _ _ = _ from if_pos hfull]
    rw [UInt32.le_iff_toNat_le, hcount] at hfull
    refine ⟨fun hadmits => absurd hadmits.1 (by omega),
      fun _ => ⟨rfl, ?_, rfl, set_shard_count limiter hrev, ?_⟩, rfl⟩
    · show (reviveEntry _).count = _
      rw [← UInt32.toNat_inj, hcount]
      omega
    · have hset := laws.set_shard h hle (hcount ▸ laws.rewrite hshard hip hslot hkey'
        (by simp [revive_marked]))
      rw [Function.update_eq_self] at hset
      exact ⟨hset.shards, hset.load_le, hset.limit_pos, hset.limit_le⟩
  · rw [show checkFound _ _ _ _ _ = _ from if_neg hfull]
    rw [UInt32.le_iff_toNat_le, hcount, not_le] at hfull
    have hadmits : Admits limiter load ip := by
      rw [laws.admits_iff h]
      refine ⟨hfull, ?_⟩
      rcases Nat.eq_zero_or_pos (load ip) with hzero | hpos
      · refine Or.inr (Or.inr ⟨i, hi, ?_⟩)
        rw [← hrev, ← UInt32.toNat_inj]
        exact hcount.trans hzero
      · exact Or.inl hpos
    have hnext : ((reviveEntry ((limiter.shards (getShardIndex ip)).entries i)).count + 1).toNat =
        load ip + 1 := by
      rw [UInt32.toNat_add, hcount, UInt32.toNat_one, Nat.mod_eq_of_lt (by omega)]
    refine ⟨fun _ => ⟨rfl, hnext, ?_⟩, fun hnot => absurd hadmits hnot, rfl⟩
    refine laws.set_shard h (Nat.succ_le_of_lt hfull) ?_
    rw [← hnext]
    exact laws.rewrite hshard hip hslot hkey' (by simp [revive_marked])

/-- Counting the first connection of an address in a slot of a shard in place. -/
theorem ShardLaws.check_first (laws : ShardLaws valid holds) (h : LimiterKeeps holds limiter load)
    (hload : load ip = 0)
    (hroom : (limiter.shards (getShardIndex ip)).count < ipLimiterMaxEntriesPerShard ∨
      ∃ i < (limiter.shards (getShardIndex ip)).count,
        ((limiter.shards (getShardIndex ip)).entries i).count = 0)
    (hshard : holds (getShardIndex ip) shard (Function.update load ip 1)) (totalEntries : UInt64) :
    CheckKeeps holds limiter load ip
      (.ok, 1, { limiter.setShard (getShardIndex ip) shard with totalEntries }) := by
  have hpos := h.limit_pos
  have hadmits : Admits limiter load ip := (laws.admits_iff h).mpr ⟨by omega, Or.inr hroom⟩
  have hset := laws.set_shard h hpos hshard
  refine ⟨fun _ => ⟨rfl, by rw [hload]; rfl, ?_⟩, fun hnot => absurd hadmits hnot, rfl⟩
  rw [hload]
  exact ⟨hset.shards, hset.load_le, hset.limit_pos, hset.limit_le⟩

/-- `ip_limiter_check_and_increment` admits a connection exactly when it should. -/
theorem check_keeps (laws : ShardLaws valid holds) (h : LimiterKeeps holds limiter load)
    (hip : valid ip) (now : UInt64) :
    CheckKeeps holds limiter load ip (ipLimiterCheckAndIncrement limiter ip now) := by
  have hshard := h.shards (getShardIndex ip)
  have hbranch := check_branch limiter ip now
  generalize ipLimiterCheckAndIncrement limiter ip now = outcome at hbranch ⊢
  cases hbranch with
  | found i hslot => exact laws.check_found h hip now hslot
  | reused i hslot hi hidle hfirst =>
      exact laws.check_first h (laws.load_of_absent hshard hslot) (Or.inr ⟨i, hi, hidle⟩)
        (laws.reuse hshard hip hslot hi hidle now) _
  | added hslot hbusy hroom =>
      exact laws.check_first h (laws.load_of_absent hshard hslot) (Or.inl hroom)
        (laws.append hshard hip hslot hroom now) _
  | full hslot hbusy hfull =>
      have hload := laws.load_of_absent hshard hslot
      have hnot : ¬ Admits limiter load ip := by
        rw [laws.admits_iff h]
        rintro ⟨_, hpos | hroom | ⟨i, hi, hidle⟩⟩
        · omega
        · omega
        · exact hbusy i hi hidle
      exact ⟨fun hadmits => absurd hadmits hnot, fun _ => ⟨rfl, rfl, rfl, fun _ _ => rfl,
        h.shards, h.load_le, h.limit_pos, h.limit_le⟩, rfl⟩

/-- `ip_limiter_decrement` takes one connection from an address that holds one. -/
theorem decrement_keeps (laws : ShardLaws valid holds) (h : LimiterKeeps holds limiter load)
    (hip : valid ip) (hpos : 0 < load ip) :
    LimiterKeeps holds (ipLimiterDecrement limiter ip)
      (Function.update load ip (load ip - 1)) := by
  have hshard := h.shards (getShardIndex ip)
  simp only [ipLimiterDecrement]
  split
  · rename_i i hslot
    have hslot : slotOf (limiter.shards (getShardIndex ip)) ip = some i := hslot
    obtain ⟨hi, hkey, _⟩ := slot_of_some hslot
    have hcount := laws.count_of_slot hshard hip hslot
    obtain ⟨hless, hmark⟩ :=
      decrement_entry_spec (by rw [hcount]; exact hpos) (laws.marked hshard i hi)
    have hle := h.load_le ip
    refine laws.set_shard h (by omega) ?_
    rw [← hcount, ← hless]
    exact laws.rewrite hshard hip hslot hkey hmark
  · rename_i hslot
    have hload := laws.load_of_absent hshard hslot
    omega

end Laws

/-! ## The compaction of a shard -/

/-- What the inner loop of `ip_limiter_compact` leaves of an entry it removes. -/
def clearEntry (entry : IpEntry) : IpEntry :=
  { entry with ip := 0, lastSeen := 0, markedForDeletion := false }

/-- The entry after a compaction. -/
def sweepEntry (now : UInt64) (entry : IpEntry) : IpEntry :=
  if expired now entry then clearEntry entry else entry

/-- The inner loop removes the expired entries among the slots it passes, and counts them. -/
theorem compact_slots_eq (now : UInt64) (hnodup : slots.Nodup) (shard : IpShard) :
    compactSlots now slots shard =
      (slots.countP fun i => expired now (shard.entries i),
        { shard with entries := fun i =>
            if i ∈ slots then sweepEntry now (shard.entries i) else shard.entries i }) := by
  induction slots generalizing shard with
  | nil => simp [compactSlots]
  | cons j slots ih =>
      obtain ⟨hj, hrest⟩ := List.nodup_cons.mp hnodup
      rw [compactSlots]
      split
      · rename_i hexpired
        -- the later slots are other ones, so clearing slot `j` does not change them
        have hother : ∀ i ∈ slots, (shard.set j (clearEntry (shard.entries j))).entries i =
            shard.entries i := by
          intro i hi
          have hij : i ≠ j := by
            rintro rfl
            exact hj hi
          exact set_entry_other shard hij _
        show ((compactSlots now slots (shard.set j (clearEntry (shard.entries j)))).1 + 1,
          (compactSlots now slots (shard.set j (clearEntry (shard.entries j)))).2) = _
        rw [ih hrest, List.countP_cons_of_pos (by simpa using hexpired)]
        refine Prod.ext ?_ ?_
        · refine congrArg (· + 1) (List.countP_congr fun i hi => ?_)
          rw [hother i hi]
        · refine IpShard.mk.injEq .. ▸ ⟨funext fun i => ?_, rfl⟩
          by_cases hij : i = j
          · subst hij
            rw [if_neg hj, if_pos List.mem_cons_self, set_entry_self, sweepEntry,
              if_pos hexpired]
          · simp only [List.mem_cons, hij, false_or, set_entry_other shard hij]
      · rename_i hkept
        rw [ih hrest, List.countP_cons_of_neg (by simpa using hkept)]
        refine Prod.ext rfl (IpShard.mk.injEq .. ▸ ⟨funext fun i => ?_, rfl⟩)
        by_cases hij : i = j
        · subst hij
          rw [if_neg hj, if_pos List.mem_cons_self, sweepEntry, if_neg hkept]
        · simp only [List.mem_cons, hij, false_or]

/-- One round of the outer loop: the expired entries are removed, and a shard all of whose
entries are is emptied. -/
theorem compact_shard_eq (now : UInt64) (shard : IpShard) :
    compactShard now shard =
      ((List.range shard.count).countP fun i => expired now (shard.entries i),
        { entries := fun i =>
            if i < shard.count then sweepEntry now (shard.entries i) else shard.entries i
          count := if ∀ i < shard.count, expired now (shard.entries i) then 0
            else shard.count }) := by
  have hall : (List.range shard.count).countP (fun i => expired now (shard.entries i)) =
      shard.count ↔ ∀ i < shard.count, expired now (shard.entries i) := by
    have hcount := List.countP_eq_length (l := List.range shard.count)
      (p := fun i => decide (expired now (shard.entries i)))
    simpa using hcount
  simp only [compactShard, compact_slots_eq now List.nodup_range, List.mem_range]
  by_cases hexpired : ∀ i < shard.count, expired now (shard.entries i)
  · rw [if_pos hexpired]
    split
    · rfl
    · rename_i hnone
      rw [hall.mpr hexpired] at hnone
      have hempty : shard.count = 0 := by omega
      rw [hempty]
  · rw [if_neg hexpired, if_neg fun hremoved => hexpired (hall.mp hremoved.2)]

/-- The compaction leaves the counters alone. -/
theorem sweep_count (now : UInt64) (entry : IpEntry) :
    (sweepEntry now entry).count = entry.count := by
  unfold sweepEntry
  split <;> rfl

/-- An entry in use is not expired. -/
theorem sweep_busy (now : UInt64) (h : 0 < entry.count.toNat) : sweepEntry now entry = entry := by
  refine if_neg fun hexpired => ?_
  rw [hexpired.2.1] at h
  exact absurd h (Nat.lt_irrefl 0)

/-- A slot marked after the compaction was marked before, and is as it was. -/
theorem sweep_marked {now : UInt64} (h : (sweepEntry now entry).markedForDeletion = true) :
    sweepEntry now entry = entry := by
  unfold sweepEntry at h ⊢
  split at h
  · cases h
  · rename_i hkept
    rw [if_neg hkept]

/-- A compaction keeps the marks on idle slots. -/
theorem swept_marked (h : ∀ i < shard.count, (shard.entries i).markedForDeletion = true →
      (shard.entries i).count = 0) (now : UInt64) :
    ∀ i < shard.count,
      (if i < shard.count then sweepEntry now (shard.entries i)
        else shard.entries i).markedForDeletion = true →
      (if i < shard.count then sweepEntry now (shard.entries i)
        else shard.entries i).count = 0 := by
  intro i hi hmark
  rw [if_pos hi] at hmark ⊢
  have hkept := sweep_marked hmark
  rw [hkept] at hmark ⊢
  exact h i hi hmark

end Emme.IpLimiter
