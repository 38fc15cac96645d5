import Emme.IpLimiter.Hash
import Emme.IpLimiter.Operations

/-!
# Which idle slot a new address is given

The loop of `ip_limiter_check_and_increment` that looks for the idle slot seen longest ago is never
reached while there is one: the first loop has already taken the first as `empty_slot`. So a new
address gets the oldest idle slot exactly if that is the first one (`gives_oldest_idle_iff`).
-/

namespace Emme.IpLimiter

open Execution

/-- The address is given a slot that was seen longest ago of the slots with counter 0. -/
def GivesOldestIdle (limiter : Limiter) (ip : UInt32) (now : UInt64) : Prop :=
  let shard := limiter.shards (getShardIndex ip)
  ∃ i < shard.count, (shard.entries i).count = 0 ∧
    (∀ j < shard.count, (shard.entries j).count = 0 →
      (shard.entries i).lastSeen ≤ (shard.entries j).lastSeen) ∧
    (ipLimiterCheckAndIncrement limiter ip now).2.2.shards (getShardIndex ip) =
      shard.set i (freshEntry ip now)

/-- The first slot with counter 0. -/
def IsFirstIdle (shard : IpShard) (i : Nat) : Prop :=
  i < shard.count ∧ (shard.entries i).count = 0 ∧ ∀ j < i, (shard.entries j).count ≠ 0

/-- No slot with counter 0 was seen before the first one. -/
def FirstIdleOldest (shard : IpShard) : Prop :=
  ∀ i, IsFirstIdle shard i → ∀ j < shard.count, (shard.entries j).count = 0 →
    (shard.entries i).lastSeen ≤ (shard.entries j).lastSeen

variable {shard : IpShard} {i j k : Nat} {limiter fresh : Limiter} {ip : UInt32}

/-- If some slot has counter 0 there is a first one. -/
theorem exists_first_idle (h : ∃ i < shard.count, (shard.entries i).count = 0) :
    ∃ i, IsFirstIdle shard i := by
  obtain ⟨hi, hidle⟩ := Nat.find_spec h
  refine ⟨Nat.find h, hi, hidle, fun j hj hzero => ?_⟩
  exact Nat.find_min h hj ⟨hj.trans hi, hzero⟩

/-- There is only one first slot with counter 0. -/
theorem IsFirstIdle.unique (hi : IsFirstIdle shard i) (hj : IsFirstIdle shard j) : i = j := by
  rcases Nat.lt_trichotomy i j with hlt | heq | hgt
  · exact absurd hi.2.1 (hj.2.2 i hlt)
  · exact heq
  · exact absurd hj.2.1 (hi.2.2 j hgt)

/-- The shard that has been replaced. -/
theorem set_shard_self (limiter : Limiter) (s : Nat) (shard : IpShard) :
    (limiter.setShard s shard).shards s = shard := by
  unfold Limiter.setShard
  exact Function.update_self ..

/-- An address without a slot is given the first idle one. -/
theorem check_takes_first_idle {s : Nat} (hs : getShardIndex ip = s)
    (habsent : ∀ j < (limiter.shards s).count, ((limiter.shards s).entries j).ip ≠ ip)
    (hfirst : IsFirstIdle (limiter.shards s) i) (now : UInt64) :
    (ipLimiterCheckAndIncrement limiter ip now).2.2.shards s =
      (limiter.shards s).set i (freshEntry ip now) := by
  have hbranch := check_branch limiter ip now
  rw [hs] at hbranch
  generalize ipLimiterCheckAndIncrement limiter ip now = outcome at hbranch ⊢
  cases hbranch with
  | found k hslot =>
      obtain ⟨hk, hip, -⟩ := slot_of_some hslot
      exact absurd hip (habsent k hk)
  | reused k hslot hk hidle hbefore =>
      rw [hs, hfirst.unique ⟨hk, hidle, hbefore⟩]
      exact set_shard_self limiter s _
  | added hslot hbusy hroom => exact absurd hfirst.2.1 (hbusy i hfirst.1)
  | full hslot hbusy hfull => exact absurd hfirst.2.1 (hbusy i hfirst.1)

/-- The slot that holds a new entry is known from the shard. -/
theorem set_fresh_injective {now : UInt64}
    (habsent : ∀ k < shard.count, (shard.entries k).ip ≠ ip) (hi : i < shard.count)
    (h : shard.set i (freshEntry ip now) = shard.set j (freshEntry ip now)) : i = j := by
  by_contra hij
  have hentry : (shard.set i (freshEntry ip now)).entries i =
      (shard.set j (freshEntry ip now)).entries i := by rw [h]
  rw [set_entry_self, set_entry_other shard hij] at hentry
  exact habsent i hi (congrArg IpEntry.ip hentry).symm

/-- If the slot that is given was seen longest ago, so was the first idle one, which it is. -/
theorem GivesOldestIdle.first_idle_oldest {now : UInt64} {s : Nat}
    (h : GivesOldestIdle limiter ip now) (hs : getShardIndex ip = s)
    (habsent : ∀ i < (limiter.shards s).count, ((limiter.shards s).entries i).ip ≠ ip) :
    FirstIdleOldest (limiter.shards s) := by
  obtain ⟨i, -, -, holdest, hgiven⟩ := h
  rw [hs] at holdest hgiven
  intro first hfirst
  rw [check_takes_first_idle hs habsent hfirst now] at hgiven
  rw [set_fresh_injective habsent hfirst.1 hgiven]
  exact holdest

/-! ## A shard at capacity -/

section Filling

variable {s : Nat} {address : Nat → UInt32}

/-- The shard has `n` slots, with these entries. -/
def Described (limiter : Limiter) (s n : Nat) (entry : Nat → IpEntry) : Prop :=
  (limiter.shards s).count = n ∧ ∀ i < n, (limiter.shards s).entries i = entry i

variable {n : Nat} {entry : Nat → IpEntry}

/-- Entries that are the same describe the shard as well. -/
theorem Described.congr {entry' : Nat → IpEntry} (h : Described limiter s n entry)
    (heq : ∀ i < n, entry i = entry' i) : Described limiter s n entry' :=
  ⟨h.1, fun i hi => (h.2 i hi).trans (heq i hi)⟩

/-- The slot of an address that no earlier slot holds. -/
theorem Described.slot_of (h : Described limiter s n entry) (hi : i < n) (hip : (entry i).ip = ip)
    (hbefore : ∀ j < i, (entry j).ip ≠ ip) : slotOf (limiter.shards s) ip = some i := by
  unfold slotOf
  rw [h.1, List.find?_range_eq_some]
  refine ⟨?_, List.mem_range.mpr hi, fun j hj => ?_⟩
  · rw [h.2 i hi]
    exact decide_eq_true hip
  · rw [h.2 j (hj.trans hi)]
    simpa using hbefore j hj

/-- Rewriting one of the slots. -/
theorem Described.set {following : Limiter} (h : Described limiter s n entry) (i : Nat)
    (value : IpEntry) (hset : following.shards s = (limiter.shards s).set i value) :
    Described following s n (Function.update entry i value) := by
  unfold Described
  rw [hset]
  refine ⟨h.1, fun j hj => ?_⟩
  by_cases hji : j = i
  · rw [hji, set_entry_self, Function.update_self]
  · rw [set_entry_other _ hji, Function.update_of_ne hji]
    exact h.2 j hj

/-- An address of the shard that no slot holds is given a new slot when all are busy and there is
room. -/
theorem Described.append (h : Described limiter s n entry) (hs : getShardIndex ip = s)
    (habsent : ∀ i < n, (entry i).ip ≠ ip) (hbusy : ∀ i < n, (entry i).count ≠ 0)
    (hroom : n < ipLimiterMaxEntriesPerShard) (now : UInt64) :
    Described (ipLimiterCheckAndIncrement limiter ip now).2.2 s (n + 1)
      (Function.update entry n (freshEntry ip now)) := by
  obtain ⟨hcount, hentry⟩ := h
  have hbranch := check_branch limiter ip now
  rw [hs] at hbranch
  generalize ipLimiterCheckAndIncrement limiter ip now = outcome at hbranch ⊢
  cases hbranch with
  | found i hslot =>
      obtain ⟨hi, hip, -⟩ := slot_of_some hslot
      rw [hcount] at hi
      rw [hentry i hi] at hip
      exact absurd hip (habsent i hi)
  | reused i hslot hi hidle hbefore =>
      rw [hcount] at hi
      rw [hentry i hi] at hidle
      exact absurd hidle (hbusy i hi)
  | added hslot hbusy' hroom' =>
      rw [hs, hcount]
      unfold Described
      dsimp only
      rw [set_shard_self]
      refine ⟨rfl, fun i hi => ?_⟩
      by_cases hlast : i = n
      · rw [hlast, set_entry_self, Function.update_self]
      · rw [set_entry_other _ hlast, Function.update_of_ne hlast]
        exact hentry i (by omega)
  | full hslot hbusy' hfull =>
      rw [hcount] at hfull
      exact absurd hroom (Nat.not_lt_of_le hfull)

/-- A decrement of an address with a slot. -/
theorem Described.decrement (h : Described limiter s n entry) (hs : getShardIndex ip = s)
    (hi : i < n) (hip : (entry i).ip = ip) (hbefore : ∀ j < i, (entry j).ip ≠ ip) :
    Described (ipLimiterDecrement limiter ip) s n
      (Function.update entry i (decrementEntry (entry i))) := by
  have hslot := h.slot_of hi hip hbefore
  unfold slotOf at hslot
  unfold ipLimiterDecrement
  dsimp only
  rw [hs, hslot]
  refine h.set i _ ?_
  rw [set_shard_self, h.2 i hi]

/-- A check of an address without a slot, when the first slot is idle. -/
theorem Described.reuse (h : Described limiter s n entry) (hs : getShardIndex ip = s) (hn : 0 < n)
    (habsent : ∀ i < n, (entry i).ip ≠ ip) (hidle : (entry 0).count = 0) (now : UInt64) :
    Described (ipLimiterCheckAndIncrement limiter ip now).2.2 s n
      (Function.update entry 0 (freshEntry ip now)) := by
  have hfirst : IsFirstIdle (limiter.shards s) 0 := by
    refine ⟨by rwa [h.1], ?_, fun j hj => absurd hj (Nat.not_lt_zero j)⟩
    rwa [h.2 0 hn]
  have hnone : ∀ j < (limiter.shards s).count, ((limiter.shards s).entries j).ip ≠ ip := by
    intro j hj
    rw [h.1] at hj
    rw [h.2 j hj]
    exact habsent j hj
  exact h.set 0 _ (check_takes_first_idle hs hnone hfirst now)

/-- The state after a check. -/
theorem step_check (limiter : Limiter) (ip : UInt32) (now : UInt64) :
    (limiter.step (.check ip now)).2 = (ipLimiterCheckAndIncrement limiter ip now).2.2 := rfl

/-- The state after a decrement. -/
theorem step_decrement (limiter : Limiter) (ip : UInt32) :
    (limiter.step (.decrement ip)).2 = ipLimiterDecrement limiter ip := rfl

/-- Checks of these addresses, one after another. -/
def fillCalls (address : Nat → UInt32) (n : Nat) : List IpCall :=
  (List.range n).map fun k => .check (address k) (UInt64.ofNat k)

/-- Checks of different addresses of a shard fill its slots in order. -/
theorem fill_shard (hempty : (limiter.shards s).count = 0)
    (hshard : ∀ k < ipLimiterMaxEntriesPerShard, getShardIndex (address k) = s)
    (hdistinct : ∀ k < ipLimiterMaxEntriesPerShard, ∀ j < k, address j ≠ address k)
    (hn : n ≤ ipLimiterMaxEntriesPerShard) :
    Described (after Limiter.step limiter (fillCalls address n)) s n
      fun i => freshEntry (address i) (UInt64.ofNat i) := by
  induction n with
  | zero => exact ⟨hempty, fun i hi => absurd hi (Nat.not_lt_zero i)⟩
  | succ n ih =>
      have hprevious := ih (Nat.le_of_succ_le hn)
      have hstep := hprevious.append (hshard n hn) (fun i hi => hdistinct n hn i hi)
        (fun i _ => (by decide : (1 : UInt32) ≠ 0)) hn (UInt64.ofNat n)
      unfold fillCalls at hstep ⊢
      rw [List.range_succ, List.map_append, after_append]
      refine hstep.congr fun i _ => ?_
      by_cases hlast : i = n
      · rw [hlast, Function.update_self]
      · rw [Function.update_of_ne hlast]

end Filling

/-- Addresses of the first shard. -/
def firstShardAddress (k : Nat) : UInt32 := unhashIp (UInt32.ofNat (256 * (k + 1)))

/-- Their hashes are multiples of the number of shards. -/
theorem hash_first_shard_address (hk : k < 1000) :
    (hashIp (firstShardAddress k)).toNat = 256 * (k + 1) := by
  unfold firstShardAddress
  rw [hash_unhash, UInt32.toNat_ofNat']
  omega

/-- They belong to the first shard. -/
theorem first_shard_address_index (hk : k < 1000) : getShardIndex (firstShardAddress k) = 0 := by
  rw [get_shard_index_eq, hash_first_shard_address hk]
  omega

/-- They are different addresses. -/
theorem first_shard_address_ne (hj : j < 1000) (hk : k < 1000) (h : j ≠ k) :
    firstShardAddress j ≠ firstShardAddress k := by
  intro heq
  have hhash := hash_first_shard_address hk
  rw [← heq, hash_first_shard_address hj] at hhash
  omega

/-- A decrement does not change which address a slot holds. -/
theorem update_decrement_ip (entry : Nat → IpEntry) (i j : Nat) :
    (Function.update entry i (decrementEntry (entry i)) j).ip = (entry j).ip := by
  by_cases hji : j = i
  · rw [hji, Function.update_self]
    rfl
  · rw [Function.update_of_ne hji]

/-- The first shard of a fresh limiter after checks of 256 addresses. -/
theorem first_shard_filled (hinit : ipLimiterInit 10 0 = some fresh) :
    Described (after Limiter.step fresh (fillCalls firstShardAddress 256)) 0 256
      fun i => freshEntry (firstShardAddress i) (UInt64.ofNat i) := by
  have hempty : (fresh.shards 0).count = 0 := by
    cases hinit
    rfl
  have hsize : ipLimiterMaxEntriesPerShard = 256 := rfl
  exact fill_shard hempty (fun k hk => first_shard_address_index (k := k) (by omega))
    (fun k hk j hj => first_shard_address_ne (j := j) (k := k) (by omega) (by omega) (by omega))
    hsize.ge

/-! ## Which slot is given -/

/-- **Which slot a new address is given.** In any state of the limiter, an address that no slot of
its shard holds is given the slot with counter 0 that was seen longest ago, exactly if that is the
first slot with counter 0. -/
theorem gives_oldest_idle_iff {limiter : Limiter} {ip : UInt32}
    (habsent : ∀ i < (limiter.shards (getShardIndex ip)).count,
      ((limiter.shards (getShardIndex ip)).entries i).ip ≠ ip)
    (hidle : ∃ i < (limiter.shards (getShardIndex ip)).count,
      ((limiter.shards (getShardIndex ip)).entries i).count = 0) (now : UInt64) :
    GivesOldestIdle limiter ip now ↔ FirstIdleOldest (limiter.shards (getShardIndex ip)) := by
  constructor
  · intro h
    exact h.first_idle_oldest rfl habsent
  · intro h
    obtain ⟨first, hfirst⟩ := exists_first_idle hidle
    exact ⟨first, hfirst.1, hfirst.2.1, h first hfirst,
      check_takes_first_idle rfl habsent hfirst now⟩

/-- The first shard is filled, and two of its addresses leave, the later one first. -/
def idleCalls : List IpCall :=
  fillCalls firstShardAddress 256 ++
    [.decrement (firstShardAddress 4), .decrement (firstShardAddress 2)]

/-- The entries of the first shard after these calls. -/
def idleEntry (i : Nat) : IpEntry :=
  if i = 2 ∨ i = 4 then ⟨firstShardAddress i, 0, UInt64.ofNat i, true⟩
  else freshEntry (firstShardAddress i) (UInt64.ofNat i)

/-- Every slot still has its address. -/
theorem idle_entry_ip (i : Nat) : (idleEntry i).ip = firstShardAddress i := by
  unfold idleEntry
  split <;> rfl

/-- The idle slots are the two of those who left. -/
theorem idle_entry_count (i : Nat) : (idleEntry i).count = 0 ↔ i = 2 ∨ i = 4 := by
  unfold idleEntry
  split
  · rename_i h
    exact iff_of_true rfl h
  · rename_i h
    exact iff_of_false (by decide : (1 : UInt32) ≠ 0) h

/-- They are as described. -/
theorem idle_described (hinit : ipLimiterInit 10 0 = some fresh) :
    Described (after Limiter.step fresh idleCalls) 0 256 idleEntry := by
  have hfilled := first_shard_filled hinit
  have hfourth := hfilled.decrement (i := 4) (first_shard_address_index (k := 4) (by decide))
    (by decide) rfl (fun j hj => first_shard_address_ne (by omega) (by decide) (by omega))
  have hsecond := hfourth.decrement (i := 2) (first_shard_address_index (k := 2) (by decide))
    (by decide) rfl (fun j hj => by
      rw [update_decrement_ip]
      exact first_shard_address_ne (by omega) (by decide) (by omega))
  unfold idleCalls
  rw [after_append]
  simp only [after_cons, after_nil, step_decrement]
  refine hsecond.congr fun i _ => ?_
  by_cases htwo : i = 2
  · subst htwo
    rfl
  · by_cases hfour : i = 4
    · subst hfour
      rfl
    · rw [Function.update_of_ne htwo, Function.update_of_ne hfour, idleEntry,
        if_neg (not_or.mpr ⟨htwo, hfour⟩)]

/-- The shard is at capacity, two of its slots are idle, and the next address is given the one
that was seen before the other. -/
theorem oldest_idle_slot_given :
    ∃ fresh limiter, ipLimiterInit 10 0 = some fresh ∧
      limiter = after Limiter.step fresh idleCalls ∧
      getShardIndex (firstShardAddress 256) = 0 ∧
      (limiter.shards 0).count = ipLimiterMaxEntriesPerShard ∧
      (limiter.shards 0).entries 2 = ⟨firstShardAddress 2, 0, 2, true⟩ ∧
      (limiter.shards 0).entries 4 = ⟨firstShardAddress 4, 0, 4, true⟩ ∧
      GivesOldestIdle limiter (firstShardAddress 256) 400 := by
  obtain ⟨fresh, hinit⟩ : ∃ fresh, ipLimiterInit 10 0 = some fresh := ⟨_, rfl⟩
  have hindex : getShardIndex (firstShardAddress 256) = 0 := first_shard_address_index (by decide)
  have hdescribed := idle_described hinit
  refine ⟨fresh, _, hinit, rfl, hindex, ?_⟩
  generalize after Limiter.step fresh idleCalls = limiter at hdescribed ⊢
  obtain ⟨hcount, hentry⟩ := hdescribed
  have habsent : ∀ i < (limiter.shards (getShardIndex (firstShardAddress 256))).count,
      ((limiter.shards (getShardIndex (firstShardAddress 256))).entries i).ip ≠
        firstShardAddress 256 := by
    rw [hindex, hcount]
    intro i hi
    rw [hentry i hi, idle_entry_ip]
    exact first_shard_address_ne (by omega) (by decide) (by omega)
  have hidle {i : Nat} (hi : i < 256) :
      ((limiter.shards 0).entries i).count = 0 ↔ i = 2 ∨ i = 4 := by
    rw [hentry i hi, idle_entry_count]
  have hfirst : IsFirstIdle (limiter.shards 0) 2 := by
    refine ⟨by omega, (hidle (by decide)).mpr (Or.inl rfl), fun j hj hzero => ?_⟩
    have hcases := (hidle (by omega)).mp hzero
    omega
  refine ⟨hcount, hentry 2 (by decide), hentry 4 (by decide), ?_⟩
  refine (gives_oldest_idle_iff habsent ?_ 400).mpr ?_
  · rw [hindex]
    exact ⟨2, hfirst.1, hfirst.2.1⟩
  · rw [hindex]
    intro i hi j hj hzero
    obtain rfl := hi.unique hfirst
    rw [hcount] at hj
    rw [hentry 2 (by decide), hentry j hj]
    rcases (hidle hj).mp hzero with rfl | rfl
    · exact UInt64.le_refl _
    · exact (by decide : (2 : UInt64) ≤ 4)

/-- The first shard is filled; its first slot becomes idle, goes to another address and becomes
idle again, and then the second one becomes idle. -/
def evictionCalls : List IpCall :=
  fillCalls firstShardAddress 256 ++
    [.decrement (firstShardAddress 0), .check (firstShardAddress 256) 300,
      .decrement (firstShardAddress 256), .decrement (firstShardAddress 1)]

/-- The entries of the first shard after these calls. -/
def evictionEntry : Nat → IpEntry
  | 0 => ⟨firstShardAddress 256, 0, 300, true⟩
  | 1 => ⟨firstShardAddress 1, 0, 1, true⟩
  | i => freshEntry (firstShardAddress i) (UInt64.ofNat i)

/-- They are as described. -/
theorem eviction_described (hinit : ipLimiterInit 10 0 = some fresh) :
    Described (after Limiter.step fresh evictionCalls) 0 256 evictionEntry := by
  have hidle := (first_shard_filled hinit).decrement (i := 0)
    (first_shard_address_index (k := 0) (by decide)) (by decide) rfl
    (fun j hj => absurd hj (Nat.not_lt_zero j))
  have hreused := hidle.reuse (first_shard_address_index (k := 256) (by decide)) (by decide)
    (fun i hi => by
      rw [update_decrement_ip]
      exact first_shard_address_ne (by omega) (by decide) (by omega)) rfl 300
  have hagain := hreused.decrement (i := 0) (first_shard_address_index (k := 256) (by decide))
    (by decide) rfl (fun j hj => absurd hj (Nat.not_lt_zero j))
  have hsecond := hagain.decrement (i := 1) (first_shard_address_index (k := 1) (by decide))
    (by decide) rfl (fun j hj => by
      obtain rfl : j = 0 := by omega
      rw [update_decrement_ip]
      exact first_shard_address_ne (by decide) (by decide) (by decide))
  unfold evictionCalls
  rw [after_append]
  simp only [after_cons, after_nil, step_check, step_decrement]
  refine hsecond.congr fun i _ => ?_
  rcases i with _ | _ | i
  · rfl
  · rfl
  · rfl

/-- None of them holds the next address. -/
theorem eviction_entry_ip (hi : i < 256) : (evictionEntry i).ip ≠ firstShardAddress 257 := by
  rcases i with _ | _ | i
  · exact first_shard_address_ne (by decide) (by decide) (by decide)
  · exact first_shard_address_ne (by decide) (by decide) (by decide)
  · exact first_shard_address_ne (by omega) (by decide) (by omega)

/-- The shard is at capacity and its second slot was seen before the first, and the next address is
given the first. -/
theorem newer_idle_slot_given :
    ∃ fresh limiter, ipLimiterInit 10 0 = some fresh ∧
      limiter = after Limiter.step fresh evictionCalls ∧
      getShardIndex (firstShardAddress 257) = 0 ∧
      (limiter.shards 0).count = ipLimiterMaxEntriesPerShard ∧
      (∀ i < (limiter.shards 0).count,
        ((limiter.shards 0).entries i).ip ≠ firstShardAddress 257) ∧
      (∃ i < (limiter.shards 0).count, ((limiter.shards 0).entries i).count = 0) ∧
      ¬ GivesOldestIdle limiter (firstShardAddress 257) 400 := by
  obtain ⟨fresh, hinit⟩ : ∃ fresh, ipLimiterInit 10 0 = some fresh := ⟨_, rfl⟩
  have hindex : getShardIndex (firstShardAddress 257) = 0 := first_shard_address_index (by decide)
  have hdescribed := eviction_described hinit
  refine ⟨fresh, _, hinit, rfl, hindex, ?_⟩
  generalize after Limiter.step fresh evictionCalls = limiter at hdescribed ⊢
  obtain ⟨hcount, hentry⟩ := hdescribed
  have habsent : ∀ i < (limiter.shards 0).count,
      ((limiter.shards 0).entries i).ip ≠ firstShardAddress 257 := by
    intro i hi
    rw [hcount] at hi
    rw [hentry i hi]
    exact eviction_entry_ip hi
  have hfirst : IsFirstIdle (limiter.shards 0) 0 := by
    refine ⟨by omega, ?_, fun j hj => absurd hj (Nat.not_lt_zero j)⟩
    rw [hentry 0 (by decide)]
    rfl
  have hsecond : ((limiter.shards 0).entries 1).count = 0 := by
    rw [hentry 1 (by decide)]
    rfl
  refine ⟨hcount, habsent, ⟨0, hfirst.1, hfirst.2.1⟩, fun hgives => ?_⟩
  -- the first slot was seen at 300 and the second at 1
  have holder := hgives.first_idle_oldest hindex habsent 0 hfirst 1 (by omega) hsecond
  rw [hentry 0 (by decide), hentry 1 (by decide)] at holder
  have hseen : (300 : UInt64) ≤ 1 := holder
  exact absurd hseen (by decide)

end Emme.IpLimiter
