import Emme.IpLimiter.Operations

/-!
# The invariant of the limiter

`LimiterInv limiter load` says that within the shard of an address every load above 0 is the counter
of exactly one slot. It is one way to hold loads in the sense of `Emme.IpLimiter.Operations`
(`shard_inv_laws`), and the compaction keeps it too (`compact_spec`).
-/

namespace Emme.IpLimiter

open KeyTable

/-- The slots of a shard hold the loads of its addresses, and a mark is on idle slots only. -/
structure ShardInv (s : Nat) (shard : IpShard) (load : UInt32 → Nat) : Prop where
  size_le : shard.count ≤ ipLimiterMaxEntriesPerShard
  holds : Holds 0 (fun i => (shard.entries i).ip) (fun i => (shard.entries i).count.toNat)
    shard.count (shardLoad load s)
  marked : ∀ i < shard.count, (shard.entries i).markedForDeletion = true →
    (shard.entries i).count = 0

/-- Every shard holds its loads, and no load exceeds the limit. -/
structure LimiterInv (limiter : Limiter) (load : UInt32 → Nat) : Prop where
  shards : ∀ s, ShardInv s (limiter.shards s) load
  load_le : ∀ ip, load ip ≤ limiter.defaultLimit.toNat
  limit_pos : 0 < limiter.defaultLimit.toNat
  limit_le : limiter.defaultLimit.toNat ≤ 10000

variable {limiter : Limiter} {load : UInt32 → Nat} {shard : IpShard} {ip : UInt32}

/-- The invariant, as one of a family. -/
theorem limiter_inv_iff : LimiterInv limiter load ↔ LimiterKeeps ShardInv limiter load :=
  ⟨fun h => ⟨h.shards, h.load_le, h.limit_pos, h.limit_le⟩,
    fun h => ⟨h.shards, h.load_le, h.limit_pos, h.limit_le⟩⟩

/-! ## The laws -/

/-- Counting in slot `i` of an address of the shard. -/
theorem ShardInv.set_count_of (h : ShardInv (getShardIndex ip) shard load) (hip : ip ≠ 0)
    {i : Nat} (hi : i < shard.count) {entry : IpEntry} (hkey : (shard.entries i).ip = ip)
    (hentry : entry.ip = ip) (hmark : entry.markedForDeletion = true → entry.count = 0) :
    ShardInv (getShardIndex ip) (shard.set i entry)
      (Function.update load ip entry.count.toNat) where
  size_le := h.size_le
  holds := by
    have hset := h.holds.set_counter hi (by rwa [hkey]) entry.count.toNat
    rw [set_ip_same (hkey.trans hentry.symm), set_count, shard_load_update_self]
    rwa [hkey] at hset
  marked := set_marked h.marked i hmark

/-- Giving an idle slot to an address without one. -/
theorem ShardInv.reuse (h : ShardInv (getShardIndex ip) shard load) (hip : ip ≠ 0) {i : Nat}
    (hi : i < shard.count) (hfree : (shard.entries i).count = 0)
    (habsent : ∀ j < shard.count, (shard.entries j).ip ≠ ip) (now : UInt64) :
    ShardInv (getShardIndex ip) (shard.set i (freshEntry ip now)) (Function.update load ip 1) where
  size_le := h.size_le
  holds := by
    rw [set_ip, set_count, shard_load_update_self]
    exact h.holds.reuse hi (by simp [hfree]) hip habsent 1
  marked := set_marked h.marked i (by simp [freshEntry])

/-- Adding a slot for an address without one. -/
theorem ShardInv.append (h : ShardInv (getShardIndex ip) shard load) (hip : ip ≠ 0)
    (hroom : shard.count < ipLimiterMaxEntriesPerShard)
    (habsent : ∀ j < shard.count, (shard.entries j).ip ≠ ip) (now : UInt64) :
    ShardInv (getShardIndex ip)
      (IpShard.set { shard with count := shard.count + 1 } shard.count (freshEntry ip now))
      (Function.update load ip 1) where
  size_le := hroom
  holds := by
    rw [set_ip, set_count, shard_load_update_self]
    exact h.holds.append hip habsent 1
  marked := append_marked h.marked ip now

/-- The invariant is a way to hold the loads of the addresses other than 0. -/
theorem shard_inv_laws : ShardLaws (· ≠ 0) ShardInv where
  marked h := h.marked
  congr h hload := ⟨h.size_le, hload ▸ h.holds, h.marked⟩
  active_lt_iff {s shard load} h := by
    have hactive := h.holds.active_lt_iff h.size_le
    rw [shard_load_active] at hactive
    rw [hactive]
    simp only [← UInt32.toNat_inj, UInt32.toNat_zero]
  count_of_slot {shard load ip i} h hip hslot := by
    obtain ⟨hi, hkey, _⟩ := slot_of_some hslot
    have hcount := h.holds.counter_eq i hi (by rwa [hkey])
    rwa [hkey, shard_load_self] at hcount
  load_of_absent {shard load ip} h hslot := by
    have hload := h.holds.total_eq_zero (slot_of_none hslot)
    rwa [shard_load_self] at hload
  rewrite h hip hslot hentry hmark := by
    obtain ⟨hi, hkey, _⟩ := slot_of_some hslot
    exact h.set_count_of hip hi hkey hentry hmark
  reuse h hip hslot hi hidle now := h.reuse hip hi hidle (slot_of_none hslot) now
  append h hip hslot hroom now := h.append hip hroom (slot_of_none hslot) now

/-! ## The operations -/

/-- What a check is to do: admit the connection and count it, or reject it, record the
rejection and leave every counter alone. -/
def CheckSpec (limiter : Limiter) (load : UInt32 → Nat) (ip : UInt32)
    (outcome : IpLimiterResult × UInt32 × Limiter) : Prop :=
  (Admits limiter load ip → outcome.1 = .ok ∧ outcome.2.1.toNat = load ip + 1 ∧
    LimiterInv outcome.2.2 (Function.update load ip (load ip + 1))) ∧
  (¬ Admits limiter load ip → outcome.1 = .rejected ∧
    outcome.2.2.rejectionsTotal = limiter.rejectionsTotal + 1 ∧
    (∀ s i, ((outcome.2.2.shards s).entries i).count = ((limiter.shards s).entries i).count) ∧
    LimiterInv outcome.2.2 load) ∧
  outcome.2.2.defaultLimit = limiter.defaultLimit

/-- `ip_limiter_check_and_increment` admits a connection exactly when it should. -/
theorem check_and_increment_spec (h : LimiterInv limiter load) (hip : ip ≠ 0) (now : UInt64) :
    CheckSpec limiter load ip (ipLimiterCheckAndIncrement limiter ip now) := by
  obtain ⟨hadmitted, hrejected, hlimit⟩ :=
    check_keeps shard_inv_laws (limiter_inv_iff.mp h) hip now
  refine ⟨fun hadmits => ?_, fun hnot => ?_, hlimit⟩
  · obtain ⟨hok, hcount, hkeeps⟩ := hadmitted hadmits
    exact ⟨hok, hcount, limiter_inv_iff.mpr hkeeps⟩
  · obtain ⟨hresult, _, htotal, hsame, hkeeps⟩ := hrejected hnot
    exact ⟨hresult, htotal, hsame, limiter_inv_iff.mpr hkeeps⟩

/-- What the inner loop does to a slot: nothing, or it clears an idle one. -/
def Swept (old new : IpEntry) : Prop :=
  new = old ∨ (new.ip = 0 ∧ old.count = 0 ∧ new.count = 0 ∧ new.markedForDeletion = false)

/-- The inner loop of the compaction does this to every slot. -/
theorem sweep_swept (now : UInt64) (entry : IpEntry) : Swept entry (sweepEntry now entry) := by
  unfold sweepEntry
  split
  · rename_i hexpired
    exact Or.inr ⟨rfl, hexpired.2.1, hexpired.2.1, rfl⟩
  · exact Or.inl rfl

/-- One round of the outer loop keeps the loads of the shard. -/
theorem compact_shard_spec {s : Nat} (h : ShardInv s shard load) (now : UInt64) :
    ShardInv s (compactShard now shard).2 load := by
  have hholds : Holds 0
      (fun i => (if i < shard.count then sweepEntry now (shard.entries i)
        else shard.entries i).ip)
      (fun i => (if i < shard.count then sweepEntry now (shard.entries i)
        else shard.entries i).count.toNat) shard.count (shardLoad load s) := by
    refine (h.holds.clear fun i hi => ?_).congr (fun i hi => rfl) fun i hi => ?_
    · rw [if_pos hi]
      rcases sweep_swept now (shard.entries i) with heq | ⟨hip, hidle, _, _⟩
      · exact Or.inl (by rw [heq])
      · exact Or.inr ⟨hip, by rw [hidle]; rfl⟩
    · rw [if_pos hi, sweep_count]
  rw [compact_shard_eq]
  by_cases hexpired : ∀ i < shard.count, expired now (shard.entries i)
  · simp only [if_pos hexpired]
    refine ⟨Nat.zero_le _, hholds.reset fun i hi => ?_, fun i hi => absurd hi (Nat.not_lt_zero i)⟩
    rw [if_pos hi, sweep_count, (hexpired i hi).2.1]
    rfl
  · simp only [if_neg hexpired]
    exact ⟨h.size_le, hholds, swept_marked h.marked now⟩

/-- `ip_limiter_compact` changes no load. -/
theorem compact_spec (h : LimiterInv limiter load) (now : UInt64) :
    LimiterInv (ipLimiterCompact limiter now) load := by
  simp only [ipLimiterCompact]
  split
  · exact h
  · exact ⟨fun s => compact_shard_spec (h.shards s) now, h.load_le, h.limit_pos, h.limit_le⟩

end Emme.IpLimiter
