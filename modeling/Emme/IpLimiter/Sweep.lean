import Emme.IpLimiter.Operations

/-!
# A compaction among other calls

`ip_limiter_compact` reads the clock once and then locks one shard after another, so other calls run
between its reading and the sweep of a shard. Each critical section is one step here. The age of an
entry wraps around if it was seen after the reading: `swept_safely_iff` says which entries are
cleared wrongly, `compaction_clears_expired_iff` for which interleavings none is.
-/

namespace Emme.IpLimiter

open Execution

/-- A compaction in progress: its reading of the clock, the shard it locks next, and
`total_removed`. -/
structure Sweep where
  now : UInt64
  next : Nat
  removed : Nat
  deriving DecidableEq, Repr

/-- The limiter, the last reading of the clock, and the compaction in progress. -/
structure SweepState where
  limiter : Limiter
  clock : UInt64
  sweep : Option Sweep

/-- A critical section: a check with its reading of the clock, a decrement, the start of a
compaction with its reading, the sweep of one shard, or the end of a compaction. -/
inductive SweepLabel where
  | check (ip : UInt32) (now : UInt64)
  | decrement (ip : UInt32)
  | start (now : UInt64)
  | sweep
  | finish
  deriving DecidableEq, Repr

/-- `ip_limiter_compact` up to its loop. -/
def SweepState.start (state : SweepState) (now : UInt64) : SweepState :=
  if now - state.limiter.lastCompaction < compactionIntervalNs then { state with clock := now }
  else
    { limiter := { state.limiter with lastCompaction := now }
      clock := now
      sweep := some { now, next := 0, removed := 0 } }

/-- One round of the loop of `ip_limiter_compact`. -/
def SweepState.sweepShard (state : SweepState) (sweep : Sweep) : SweepState :=
  let (removed, shard) := compactShard sweep.now (state.limiter.shards sweep.next)
  { state with
    limiter := state.limiter.setShard sweep.next shard
    sweep := some { sweep with next := sweep.next + 1, removed := sweep.removed + removed } }

/-- `ip_limiter_compact` after its loop. -/
def SweepState.finish (state : SweepState) (sweep : Sweep) : SweepState :=
  { state with
    limiter :=
      { state.limiter with
        totalEntries := state.limiter.totalEntries - UInt64.ofNat sweep.removed }
    sweep := none }

/-- One step. The readings of the clock do not decrease. -/
def SweepState.step (state : SweepState) : SweepLabel → Option SweepState
  | .check ip now =>
      if state.clock ≤ now then
        some { state with
          limiter := (ipLimiterCheckAndIncrement state.limiter ip now).2.2, clock := now }
      else none
  | .decrement ip => some { state with limiter := ipLimiterDecrement state.limiter ip }
  | .start now =>
      if state.sweep = none ∧ state.clock ≤ now then some (state.start now) else none
  | .sweep =>
      state.sweep.bind fun sweep =>
        if sweep.next < ipLimiterShards then some (state.sweepShard sweep) else none
  | .finish =>
      state.sweep.bind fun sweep =>
        if sweep.next = ipLimiterShards then some (state.finish sweep) else none

/-! ## A compaction without interruption -/

variable {limiter : Limiter} {now : UInt64}

/-- A compaction that has swept `k` shards and was not interrupted. -/
def sweptUpTo (limiter : Limiter) (now : UInt64) (k : Nat) : Sweep where
  now
  next := k
  removed := ((List.range k).map fun s => (compactShard now (limiter.shards s)).1).sum

/-- The state during such a compaction. -/
def sweptState (limiter : Limiter) (now : UInt64) (k : Nat) : SweepState where
  limiter :=
    { limiter with
      lastCompaction := now
      shards := fun s =>
        if s < k then (compactShard now (limiter.shards s)).2 else limiter.shards s }
  clock := now
  sweep := some (sweptUpTo limiter now k)

/-- The next shard is swept. -/
theorem swept_state_step (limiter : Limiter) (now : UInt64) {k : Nat} (hk : k < ipLimiterShards) :
    (sweptState limiter now k).step .sweep = some (sweptState limiter now (k + 1)) := by
  have hshard : (sweptState limiter now k).limiter.shards k = limiter.shards k :=
    if_neg (Nat.lt_irrefl k)
  have hshards : Function.update (sweptState limiter now k).limiter.shards k
      (compactShard now (limiter.shards k)).2 =
      (sweptState limiter now (k + 1)).limiter.shards := by
    funext s
    unfold sweptState
    dsimp only
    rcases Nat.lt_trichotomy s k with hlt | rfl | hgt
    · rw [Function.update_of_ne (by omega), if_pos hlt, if_pos (by omega)]
    · rw [Function.update_self, if_pos (Nat.lt_succ_self s)]
    · rw [Function.update_of_ne (by omega), if_neg (by omega), if_neg (by omega)]
  have hremoved : (sweptUpTo limiter now (k + 1)).removed =
      (sweptUpTo limiter now k).removed + (compactShard now (limiter.shards k)).1 := by
    unfold sweptUpTo
    rw [List.range_succ, List.map_append, List.sum_append, List.map_singleton, List.sum_singleton]
  show (if k < ipLimiterShards then
    some ((sweptState limiter now k).sweepShard (sweptUpTo limiter now k)) else none) = _
  rw [if_pos hk]
  refine congrArg some ?_
  unfold SweepState.sweepShard
  show SweepState.mk
    { limiter with
      lastCompaction := now
      shards := Function.update (sweptState limiter now k).limiter.shards k
        (compactShard now ((sweptState limiter now k).limiter.shards k)).2 } now
    (some ⟨now, k + 1, (sweptUpTo limiter now k).removed +
        (compactShard now ((sweptState limiter now k).limiter.shards k)).1⟩) = _
  rw [hshard, hshards, ← hremoved]
  rfl

/-- The next shards are swept one after the other. -/
theorem run_sweeps (limiter : Limiter) (now : UInt64) {k n : Nat} (hk : k + n ≤ ipLimiterShards) :
    run SweepState.step (sweptState limiter now k) (List.replicate n .sweep) =
      some (sweptState limiter now (k + n)) := by
  induction n generalizing k with
  | zero => rfl
  | succ n ih =>
      rw [List.replicate_succ, run, swept_state_step limiter now (by omega)]
      show run SweepState.step (sweptState limiter now (k + 1)) _ = _
      rw [ih (by omega), Nat.add_right_comm, Nat.add_assoc]

/-- A compaction that nothing interrupts is `ipLimiterCompact` on the shards that exist. -/
theorem uninterrupted_compaction {clock : UInt64} (hclock : clock ≤ now)
    (hdue : ¬ now - limiter.lastCompaction < compactionIntervalNs) :
    run SweepState.step ⟨limiter, clock, none⟩
        (.start now :: (List.replicate ipLimiterShards .sweep ++ [.finish])) =
      some
        { limiter :=
            { ipLimiterCompact limiter now with
              shards := fun s =>
                if s < ipLimiterShards then (ipLimiterCompact limiter now).shards s
                else limiter.shards s }
          clock := now
          sweep := none } := by
  have hstart : (SweepState.mk limiter clock none).step (.start now) =
      some (sweptState limiter now 0) := by
    rw [SweepState.step, if_pos ⟨rfl, hclock⟩, SweepState.start, if_neg hdue]
    rfl
  have hfinish : (sweptState limiter now ipLimiterShards).step .finish =
      some ((sweptState limiter now ipLimiterShards).finish
        (sweptUpTo limiter now ipLimiterShards)) := rfl
  refine run_cons_eq_some.mpr ⟨_, hstart, ?_⟩
  rw [run_append, run_sweeps limiter now (Nat.zero_add _).le, Nat.zero_add, Option.bind_eq_bind,
    Option.bind_some]
  refine run_cons_eq_some.mpr ⟨_, hfinish, ?_⟩
  rw [run, SweepState.finish, sweptState, sweptUpTo, ipLimiterCompact, if_neg hdue]

/-! ## What a sweep clears -/

/-- The sweep of the shard changes this entry. -/
def ClearsEntry (now : UInt64) (shard : IpShard) (i : Nat) : Prop :=
  i < shard.count ∧ (compactShard now shard).2.entries i ≠ shard.entries i

/-- Every entry that the sweep clears was seen more than 60 seconds before the reading. -/
def SweptSafely (now : UInt64) (shard : IpShard) : Prop :=
  ∀ i, ClearsEntry now shard i →
    (shard.entries i).lastSeen.toNat + entryExpiryNs.toNat < now.toNat

/-- The entry is marked and idle, and was seen after the reading: its age wraps around, to more
than 60 seconds unless it was seen almost `2 ^ 64` nanoseconds later. -/
def Overtakes (now : UInt64) (entry : IpEntry) : Prop :=
  entry.markedForDeletion = true ∧ entry.count = 0 ∧ now < entry.lastSeen ∧
    entry.lastSeen.toNat - now.toNat < 2 ^ 64 - entryExpiryNs.toNat

instance (now : UInt64) (entry : IpEntry) : Decidable (Overtakes now entry) :=
  inferInstanceAs (Decidable (_ ∧ _))

/-- The sweep of a shard clears the entries in use that have expired. -/
theorem clears_entry_iff (now : UInt64) (shard : IpShard) (i : Nat) :
    ClearsEntry now shard i ↔ i < shard.count ∧ expired now (shard.entries i) := by
  unfold ClearsEntry
  rw [compact_shard_eq]
  refine and_congr_right fun hi => ?_
  show (if i < shard.count then _ else _) ≠ _ ↔ _
  rw [if_pos hi]
  unfold sweepEntry
  split
  · rename_i hexpired
    refine iff_of_true (fun heq => ?_) hexpired
    -- the mark is what a cleared entry always loses
    have hmark : false = true := (congrArg IpEntry.markedForDeletion heq).trans hexpired.1
    cases hmark
  · rename_i hkept
    exact iff_of_false (fun hne => hne rfl) hkept

/-- The age of an entry seen before the reading. -/
theorem age_of_le {lastSeen : UInt64} (h : lastSeen ≤ now) :
    (now - lastSeen).toNat = now.toNat - lastSeen.toNat :=
  UInt64.toNat_sub_of_le now lastSeen h

/-- The age of an entry seen after the reading. -/
theorem age_of_lt {lastSeen : UInt64} (h : now < lastSeen) :
    (now - lastSeen).toNat = 2 ^ 64 - (lastSeen.toNat - now.toNat) := by
  have hlt := UInt64.lt_iff_toNat_lt.mp h
  have hbound := lastSeen.toNat_lt
  rw [UInt64.toNat_sub]
  omega

/-- An entry is cleared if it has expired, or if it was seen after the reading. -/
theorem expired_iff (now : UInt64) (entry : IpEntry) :
    expired now entry ↔
      (entry.markedForDeletion = true ∧ entry.count = 0 ∧
        entry.lastSeen.toNat + entryExpiryNs.toNat < now.toNat) ∨ Overtakes now entry := by
  have hexpiry : entryExpiryNs.toNat = 60000000000 := rfl
  have hseen := entry.lastSeen.toNat_lt
  unfold expired Overtakes
  rw [UInt64.lt_iff_toNat_lt, UInt64.lt_iff_toNat_lt, hexpiry]
  rcases UInt64.lt_or_le now entry.lastSeen with hlt | hle
  · have hlt' := UInt64.lt_iff_toNat_lt.mp hlt
    rw [age_of_lt hlt]
    constructor
    · rintro ⟨hmark, hcount, hage⟩
      exact Or.inr ⟨hmark, hcount, hlt', by omega⟩
    · rintro (⟨_, _, hage⟩ | ⟨hmark, hcount, _, hage⟩)
      · omega
      · exact ⟨hmark, hcount, by omega⟩
  · have hle' := UInt64.le_iff_toNat_le.mp hle
    rw [age_of_le hle]
    constructor
    · rintro ⟨hmark, hcount, hage⟩
      exact Or.inl ⟨hmark, hcount, by omega⟩
    · rintro (⟨hmark, hcount, hage⟩ | ⟨_, _, hlt, _⟩)
      · exact ⟨hmark, hcount, by omega⟩
      · omega

/-- A sweep is safe exactly if no entry of the shard overtakes its reading. -/
theorem swept_safely_iff (now : UInt64) (shard : IpShard) :
    SweptSafely now shard ↔ ∀ i < shard.count, ¬ Overtakes now (shard.entries i) := by
  constructor
  · intro h i hi hovertakes
    have hcleared : ClearsEntry now shard i :=
      (clears_entry_iff now shard i).mpr ⟨hi, (expired_iff now _).mpr (Or.inr hovertakes)⟩
    have hold := h i hcleared
    have hnew := UInt64.lt_iff_toNat_lt.mp hovertakes.2.2.1
    omega
  · intro h i hcleared
    obtain ⟨hi, hexpired⟩ := (clears_entry_iff now shard i).mp hcleared
    rcases (expired_iff now _).mp hexpired with ⟨_, _, hold⟩ | hovertakes
    · exact hold
    · exact absurd hovertakes (h i hi)

/-! ## Runs -/

/-- If the step is the sweep of a shard, it clears only entries seen more than 60 seconds before
the reading of the compaction. -/
def ClearsExpired (state : SweepState) : SweepLabel → Prop
  | .sweep => ∀ sweep, state.sweep = some sweep → sweep.next < ipLimiterShards →
      SweptSafely sweep.now (state.limiter.shards sweep.next)
  | _ => True

/-- If the step is the sweep of a shard, no entry of the shard overtakes the compaction. -/
def NotOvertaken (state : SweepState) : SweepLabel → Prop
  | .sweep => ∀ sweep, state.sweep = some sweep → sweep.next < ipLimiterShards →
      ∀ i < (state.limiter.shards sweep.next).count,
        ¬ Overtakes sweep.now ((state.limiter.shards sweep.next).entries i)
  | _ => True

/-- A sweep is safe exactly if no entry of the shard overtakes it. -/
theorem clears_expired_iff (state : SweepState) (label : SweepLabel) :
    ClearsExpired state label ↔ NotOvertaken state label := by
  cases label with
  | sweep => exact forall₃_congr fun sweep _ _ => swept_safely_iff sweep.now _
  | check ip now => exact Iff.rfl
  | decrement ip => exact Iff.rfl
  | start now => exact Iff.rfl
  | finish => exact Iff.rfl

/-- **What a compaction clears among other calls.** In every interleaving, each entry a sweep clears
was last seen more than 60 seconds before the compaction's reading of the clock, exactly if at every
sweep no marked and idle entry of the shard was seen after the reading. -/
theorem compaction_clears_expired_iff (state : SweepState) (labels : List SweepLabel) :
    Throughout SweepState.step ClearsExpired state labels ↔
      Throughout SweepState.step NotOvertaken state labels :=
  ⟨throughout_mono fun state label => (clears_expired_iff state label).mp,
    throughout_mono fun state label => (clears_expired_iff state label).mpr⟩

/-- A compaction reads the clock, and a client connects and disconnects before its shard is
swept. -/
def overtakingLabels : List SweepLabel :=
  [.start 5000000000, .check 154 5000000001, .decrement 154, .sweep]

/-- The entry of that client is cleared although it was seen after the reading. -/
theorem overtaking_entry_cleared :
    ∃ fresh, ipLimiterInit 1 0 = some fresh ∧
      (run SweepState.step ⟨fresh, 0, none⟩ overtakingLabels).isSome = true ∧
      ¬ Throughout SweepState.step ClearsExpired ⟨fresh, 0, none⟩ overtakingLabels := by
  refine ⟨_, rfl, by decide, ?_⟩
  intro h
  have hsweep := (((h.2 _ rfl).2 _ rfl).2 _ rfl).1
  have hclear := (clears_expired_iff _ _).mp hsweep _ rfl (by decide) 0 (by decide)
  exact hclear (by decide)

end Emme.IpLimiter
