import Emme.Lib.Execution
import Emme.Lib.KeyTable
import Mathlib.Data.UInt

/-!
# The per-IP connection limiter

Model of `src/ip_limiter.c`. All arithmetic wraps as in C, and clock readings are arguments. Each
function runs under the lock of one shard (`ip_limiter_compact` of one after another), so a call is
one step. The tests for `NULL` arguments, which alone lead to `IP_LIMITER_ERROR`, are left out.
-/

namespace Emme.IpLimiter

/-- `ip_entry_t`. -/
structure IpEntry where
  ip : UInt32
  count : UInt32
  lastSeen : UInt64
  markedForDeletion : Bool
  deriving DecidableEq, Repr

/-- `ip_shard_t` without its lock. Entries at `ipLimiterMaxEntriesPerShard` and beyond do not
exist in the source. -/
structure IpShard where
  entries : Nat → IpEntry
  count : Nat

/-- `ip_limiter_t`. Shards at `ipLimiterShards` and beyond do not exist in the source. -/
structure Limiter where
  shards : Nat → IpShard
  defaultLimit : UInt32
  totalEntries : UInt64
  rejectionsTotal : UInt64
  lastCompaction : UInt64

/-- `ip_limiter_result_t`. -/
inductive IpLimiterResult where
  | ok
  | rejected
  | error
  deriving DecidableEq, Repr

/-- `IP_LIMITER_SHARDS`. -/
def ipLimiterShards : Nat := 256

/-- `IP_LIMITER_MAX_ENTRIES_PER_SHARD`. -/
def ipLimiterMaxEntriesPerShard : Nat := 256

/-- `IP_LIMITER_MAX_CONNECTIONS_PER_IP`. -/
def ipLimiterMaxConnectionsPerIp : UInt32 := 10000

/-- `KNUTH_MULTIPLICATIVE_CONSTANT`, as far as 32-bit products depend on it. -/
def knuthMultiplicativeConstant : UInt32 := 2654435761

/-- `COMPACTION_INTERVAL_NS`. -/
def compactionIntervalNs : UInt64 := 5000000000

/-- `ENTRY_EXPIRY_NS`. -/
def entryExpiryNs : UInt64 := 60000000000

/-- `hash_ip`. -/
def hashIp (ip : UInt32) : UInt32 :=
  let ip := ip * knuthMultiplicativeConstant
  let ip := ip ^^^ (ip >>> 16)
  let ip := ip * knuthMultiplicativeConstant
  let ip := ip ^^^ (ip >>> 16)
  ip * knuthMultiplicativeConstant

/-- `get_shard_index`. -/
def getShardIndex (ip : UInt32) : Nat :=
  (hashIp ip &&& (UInt32.ofNat (ipLimiterShards - 1))).toNat

/-- An entry of the zeroed memory `ip_limiter_init` starts from. -/
def zeroEntry : IpEntry := ⟨0, 0, 0, false⟩

/-- `ip_limiter_init`: `none` is the answer -1. -/
def ipLimiterInit (defaultLimit : UInt32) (now : UInt64) : Option Limiter :=
  if defaultLimit = 0 ∨ ipLimiterMaxConnectionsPerIp < defaultLimit then
    none
  else
    some
      { shards := fun _ => { entries := fun _ => zeroEntry, count := 0 }
        defaultLimit
        totalEntries := 0
        rejectionsTotal := 0
        lastCompaction := now }

/-- Store `entry` in slot `i`. -/
def IpShard.set (shard : IpShard) (i : Nat) (entry : IpEntry) : IpShard :=
  { shard with entries := Function.update shard.entries i entry }

/-- Put `shard` in place of shard `s`. -/
def Limiter.setShard (limiter : Limiter) (s : Nat) (shard : IpShard) : Limiter :=
  { limiter with shards := Function.update limiter.shards s shard }

/-- The first loop of `ip_limiter_check_and_increment` over the remaining slots: the slot that
holds `ip`, if any, and the first slot seen before it whose counter is 0. -/
def findSlot (shard : IpShard) (ip : UInt32) :
    List Nat → Option Nat → Option Nat × Option Nat
  | [], emptySlot => (none, emptySlot)
  | i :: rest, emptySlot =>
      if (shard.entries i).ip = ip then
        (some i, emptySlot)
      else if (shard.entries i).count = 0 ∧ emptySlot = none then
        findSlot shard ip rest (some i)
      else
        findSlot shard ip rest emptySlot

/-- The second loop of `ip_limiter_check_and_increment`: the slot with counter 0 that was seen
longest ago. -/
def findOldest (shard : IpShard) : List Nat → Option Nat → UInt64 → Option Nat
  | [], oldest, _ => oldest
  | i :: rest, oldest, oldestTime =>
      if (shard.entries i).count = 0 ∧ (shard.entries i).lastSeen < oldestTime then
        findOldest shard rest (some i) (shard.entries i).lastSeen
      else
        findOldest shard rest oldest oldestTime

/-- The entry of an address that holds its first connection. -/
def freshEntry (ip : UInt32) (now : UInt64) : IpEntry := ⟨ip, 1, now, false⟩

/-- What a check finds in a slot of its own address: a mark is taken back, and with it what is
left of the counter. -/
def reviveEntry (entry : IpEntry) : IpEntry :=
  if entry.markedForDeletion then { entry with markedForDeletion := false, count := 0 } else entry

/-- The part of `ip_limiter_check_and_increment` for an address with a slot. -/
def checkFound (limiter : Limiter) (s : Nat) (shard : IpShard) (i : Nat) (now : UInt64) :
    IpLimiterResult × UInt32 × Limiter :=
  let entry := reviveEntry (shard.entries i)
  if limiter.defaultLimit ≤ entry.count then
    (.rejected, entry.count,
      { limiter.setShard s (shard.set i entry) with
        rejectionsTotal := limiter.rejectionsTotal + 1 })
  else
    (.ok, entry.count + 1,
      limiter.setShard s (shard.set i { entry with count := entry.count + 1, lastSeen := now }))

/-- The part of `ip_limiter_check_and_increment` for an address without a slot: the empty slot
found or added, else the oldest slot with counter 0, else a rejection. -/
def checkAbsent (limiter : Limiter) (s : Nat) (shard : IpShard) (emptySlot : Option Nat)
    (ip : UInt32) (now : UInt64) : IpLimiterResult × UInt32 × Limiter :=
  match emptySlot with
  | some i =>
      (.ok, 1,
        { limiter.setShard s (shard.set i (freshEntry ip now)) with
          totalEntries := limiter.totalEntries + 1 })
  | none =>
      match findOldest shard (List.range shard.count) none (UInt64.ofNat (2 ^ 64 - 1)) with
      | some i => (.ok, 1, limiter.setShard s (shard.set i (freshEntry ip now)))
      | none =>
          (.rejected, limiter.defaultLimit,
            { limiter with rejectionsTotal := limiter.rejectionsTotal + 1 })

/-- `ip_limiter_check_and_increment`: the answer, the value written to `current_count` and the
limiter afterwards. -/
def ipLimiterCheckAndIncrement (limiter : Limiter) (ip : UInt32) (now : UInt64) :
    IpLimiterResult × UInt32 × Limiter :=
  let s := getShardIndex ip
  let shard := limiter.shards s
  match findSlot shard ip (List.range shard.count) none with
  | (some i, _) => checkFound limiter s shard i now
  | (none, some i) => checkAbsent limiter s shard (some i) ip now
  | (none, none) =>
      if shard.count < ipLimiterMaxEntriesPerShard then
        checkAbsent limiter s { shard with count := shard.count + 1 } (some shard.count) ip now
      else
        checkAbsent limiter s shard none ip now

/-- The update `ip_limiter_decrement` makes in the slot of the address. -/
def decrementEntry (entry : IpEntry) : IpEntry :=
  { entry with
    count := entry.count - 1
    markedForDeletion := if entry.count ≤ 1 then true else entry.markedForDeletion }

/-- `ip_limiter_decrement`. -/
def ipLimiterDecrement (limiter : Limiter) (ip : UInt32) : Limiter :=
  let s := getShardIndex ip
  let shard := limiter.shards s
  match (List.range shard.count).find? fun i => (shard.entries i).ip = ip with
  | some i => limiter.setShard s (shard.set i (decrementEntry (shard.entries i)))
  | none => limiter

/-- `ip_limiter_compact` removes this entry. -/
def expired (now : UInt64) (entry : IpEntry) : Prop :=
  entry.markedForDeletion = true ∧ entry.count = 0 ∧ entryExpiryNs < now - entry.lastSeen

instance (now : UInt64) (entry : IpEntry) : Decidable (expired now entry) :=
  inferInstanceAs (Decidable (_ ∧ _))

/-- The inner loop of `ip_limiter_compact` over the remaining slots: how many entries it
removes, and the shard afterwards. -/
def compactSlots (now : UInt64) : List Nat → IpShard → Nat × IpShard
  | [], shard => (0, shard)
  | j :: rest, shard =>
      if expired now (shard.entries j) then
        let cleared :=
          shard.set j { shard.entries j with ip := 0, lastSeen := 0, markedForDeletion := false }
        ((compactSlots now rest cleared).1 + 1, (compactSlots now rest cleared).2)
      else
        compactSlots now rest shard

/-- One round of the outer loop of `ip_limiter_compact`. -/
def compactShard (now : UInt64) (shard : IpShard) : Nat × IpShard :=
  let (removed, swept) := compactSlots now (List.range shard.count) shard
  if 0 < removed ∧ removed = shard.count then (removed, { swept with count := 0 })
  else (removed, swept)

/-- `ip_limiter_compact`. -/
def ipLimiterCompact (limiter : Limiter) (now : UInt64) : Limiter :=
  if now - limiter.lastCompaction < compactionIntervalNs then
    limiter
  else
    let totalRemoved :=
      ((List.range ipLimiterShards).map fun s => (compactShard now (limiter.shards s)).1).sum
    { limiter with
      lastCompaction := now
      shards := fun s => (compactShard now (limiter.shards s)).2
      totalEntries := limiter.totalEntries - UInt64.ofNat totalRemoved }

/-! ## Runs -/

/-- A call on the limiter, with the clock reading it makes. -/
inductive IpCall where
  | check (ip : UInt32) (now : UInt64)
  | decrement (ip : UInt32)
  | compact (now : UInt64)
  deriving DecidableEq, Repr

/-- The answer to a call. -/
inductive IpAnswer where
  | checked (result : IpLimiterResult) (currentCount : UInt32)
  | done
  deriving DecidableEq, Repr

/-- One call. -/
def Limiter.step (limiter : Limiter) : IpCall → IpAnswer × Limiter
  | .check ip now =>
      let (result, currentCount, limiter') := ipLimiterCheckAndIncrement limiter ip now
      (.checked result currentCount, limiter')
  | .decrement ip => (.done, ipLimiterDecrement limiter ip)
  | .compact now => (.done, ipLimiterCompact limiter now)

/-- What happened in a run: the calls with their answers, in order. -/
abbrev History := List (IpCall × IpAnswer)

/-- The call was a check on `ip` and was answered `IP_LIMITER_OK`. -/
def answersOk (ip : UInt32) : IpCall × IpAnswer → Bool
  | (.check ip' _, .checked .ok _) => ip' = ip
  | _ => false

/-- The call was a decrement of `ip`. -/
def isDecrement (ip : UInt32) : IpCall × IpAnswer → Bool
  | (.decrement ip', _) => ip' = ip
  | _ => false

/-- OK answers minus decrements so far. -/
def active (history : History) (ip : UInt32) : Int :=
  (history.countP (answersOk ip) : Int) - history.countP (isDecrement ip)

/-- The address a call is about is not 0.0.0.0. -/
def IpCall.NonZero : IpCall → Prop
  | .check ip _ => ip ≠ 0
  | .decrement ip => ip ≠ 0
  | .compact _ => True

instance : ∀ call, Decidable (IpCall.NonZero call)
  | .check _ _ => inferInstanceAs (Decidable (_ ≠ _))
  | .decrement _ => inferInstanceAs (Decidable (_ ≠ _))
  | .compact _ => isTrue trivial

/-- Each address was decremented at most as often as it was answered `IP_LIMITER_OK`, at every
point of the run. -/
def Disciplined (history : History) : Prop :=
  ∀ past, past <+: history → ∀ ip, 0 ≤ active past ip

end Emme.IpLimiter
