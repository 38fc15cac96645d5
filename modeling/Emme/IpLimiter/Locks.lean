import Emme.IpLimiter.Exactness
import Emme.Lib.CriticalSection

/-!
# The limiter under its locks

Each shard of the limiter has a mutex. The machine of this file does what happens under it in single
steps, among those of all other threads. The sections come to what the functions do as a whole
(`section_implements`), so that the limiter is as exact as if every call were one step
(`exact_under_locks`). The totals are no part of a shard and are left out.
-/

namespace Emme.IpLimiter

open CriticalSection Execution

/-! ## The critical sections -/

/-- What is done under the mutex of a shard: a check, a decrement, or the round of a compaction. -/
inductive SectionCall where
  | check (ip : UInt32) (now : UInt64)
  | decrement (ip : UInt32)
  | sweep (s : Nat) (now : UInt64)
  deriving DecidableEq, Repr

/-- Where the thread with the mutex is. In a check: in a loop, at the mark, the counter or the time
of the entry it has found, or at the four stores to an entry it takes. In a decrement: in the loop,
at the counter, at the mark. In a compaction: in the inner loop, or at the three stores to an entry
it clears. -/
inductive SectionPoint where
  | searching (ip : UInt32) (now : UInt64) (i : Nat) (emptySlot : Option Nat)
  | unmarking (now : UInt64) (i : Nat)
  | zeroing (now : UInt64) (i : Nat)
  | comparing (now : UInt64) (i : Nat)
  | increasing (now : UInt64) (i : Nat) (current : UInt32)
  | stamping (now : UInt64) (i : Nat) (current : UInt32)
  | searchingOldest (ip : UInt32) (now : UInt64) (i : Nat) (oldest : Option Nat)
      (oldestTime : UInt64)
  | takingIp (ip : UInt32) (now : UInt64) (i : Nat)
  | takingCount (now : UInt64) (i : Nat)
  | takingTime (now : UInt64) (i : Nat)
  | takingMark (i : Nat)
  | seeking (ip : UInt32) (i : Nat)
  | decreasing (i : Nat)
  | marking (i : Nat) (oldCount : UInt32)
  | sweeping (now : UInt64) (j : Nat) (removed : Nat)
  | clearingIp (now : UInt64) (j : Nat) (removed : Nat)
  | clearingTime (now : UInt64) (j : Nat) (removed : Nat)
  | clearingMark (now : UInt64) (j : Nat) (removed : Nat)
  deriving DecidableEq, Repr

/-- One step under the mutex. -/
def sectionStep (limit : UInt32) (shard : IpShard) :
    SectionPoint → IpShard × (SectionPoint ⊕ IpAnswer)
  | .searching ip now i emptySlot =>
      if i < shard.count then
        if (shard.entries i).ip = ip then
          (shard, .inl (.unmarking now i))
        else if (shard.entries i).count = 0 ∧ emptySlot = none then
          (shard, .inl (.searching ip now (i + 1) (some i)))
        else
          (shard, .inl (.searching ip now (i + 1) emptySlot))
      else
        match emptySlot with
        | some j => (shard, .inl (.takingIp ip now j))
        | none =>
            if shard.count < ipLimiterMaxEntriesPerShard then
              ({ shard with count := shard.count + 1 }, .inl (.takingIp ip now shard.count))
            else
              (shard, .inl (.searchingOldest ip now 0 none (UInt64.ofNat (2 ^ 64 - 1))))
  | .unmarking now i =>
      if (shard.entries i).markedForDeletion then
        (shard.set i { shard.entries i with markedForDeletion := false }, .inl (.zeroing now i))
      else
        (shard, .inl (.comparing now i))
  | .zeroing now i => (shard.set i { shard.entries i with count := 0 }, .inl (.comparing now i))
  | .comparing now i =>
      if limit ≤ (shard.entries i).count then
        (shard, .inr (.checked .rejected (shard.entries i).count))
      else
        (shard, .inl (.increasing now i (shard.entries i).count))
  | .increasing now i current =>
      (shard.set i { shard.entries i with count := (shard.entries i).count + 1 },
        .inl (.stamping now i current))
  | .stamping now i current =>
      (shard.set i { shard.entries i with lastSeen := now }, .inr (.checked .ok (current + 1)))
  | .searchingOldest ip now i oldest oldestTime =>
      if i < shard.count then
        if (shard.entries i).count = 0 ∧ (shard.entries i).lastSeen < oldestTime then
          (shard, .inl (.searchingOldest ip now (i + 1) (some i) (shard.entries i).lastSeen))
        else
          (shard, .inl (.searchingOldest ip now (i + 1) oldest oldestTime))
      else
        match oldest with
        | some j => (shard, .inl (.takingIp ip now j))
        | none => (shard, .inr (.checked .rejected limit))
  | .takingIp ip now i => (shard.set i { shard.entries i with ip }, .inl (.takingCount now i))
  | .takingCount now i =>
      (shard.set i { shard.entries i with count := 1 }, .inl (.takingTime now i))
  | .takingTime now i =>
      (shard.set i { shard.entries i with lastSeen := now }, .inl (.takingMark i))
  | .takingMark i =>
      (shard.set i { shard.entries i with markedForDeletion := false }, .inr (.checked .ok 1))
  | .seeking ip i =>
      if i < shard.count then
        if (shard.entries i).ip = ip then (shard, .inl (.decreasing i))
        else (shard, .inl (.seeking ip (i + 1)))
      else
        (shard, .inr .done)
  | .decreasing i =>
      (shard.set i { shard.entries i with count := (shard.entries i).count - 1 },
        .inl (.marking i (shard.entries i).count))
  | .marking i oldCount =>
      if oldCount ≤ 1 then
        (shard.set i { shard.entries i with markedForDeletion := true }, .inr .done)
      else
        (shard, .inr .done)
  | .sweeping now j removed =>
      if j < shard.count then
        if expired now (shard.entries j) then (shard, .inl (.clearingIp now j removed))
        else (shard, .inl (.sweeping now (j + 1) removed))
      else if 0 < removed ∧ removed = shard.count then
        ({ shard with count := 0 }, .inr .done)
      else
        (shard, .inr .done)
  | .clearingIp now j removed =>
      (shard.set j { shard.entries j with ip := 0 }, .inl (.clearingTime now j removed))
  | .clearingTime now j removed =>
      (shard.set j { shard.entries j with lastSeen := 0 }, .inl (.clearingMark now j removed))
  | .clearingMark now j removed =>
      (shard.set j { shard.entries j with markedForDeletion := false },
        .inl (.sweeping now (j + 1) (removed + 1)))

/-- The three functions on a limiter with this `default_limit`. -/
def sectionBody (limit : UInt32) : Body Nat IpShard SectionCall SectionPoint IpAnswer where
  lock
    | .check ip _ => getShardIndex ip
    | .decrement ip => getShardIndex ip
    | .sweep s _ => s
  enter
    | .check ip now => .searching ip now 0 none
    | .decrement ip => .seeking ip 0
    | .sweep _ now => .sweeping now 0 0
  step _ := sectionStep limit

/-- A check that has found the entry of its address, in the `i`-th slot. -/
def foundOutcome (limit : UInt32) (shard : IpShard) (now : UInt64) (i : Nat) :
    IpAnswer × IpShard :=
  let entry := reviveEntry (shard.entries i)
  if limit ≤ entry.count then (.checked .rejected entry.count, shard.set i entry)
  else
    (.checked .ok (entry.count + 1),
      shard.set i { entry with count := entry.count + 1, lastSeen := now })

/-- What the sections do as a whole. -/
def sectionWhole (limit : UInt32) (shard : IpShard) : SectionCall → IpAnswer × IpShard
  | .check ip now =>
      match findSlot shard ip (List.range shard.count) none with
      | (some i, _) => foundOutcome limit shard now i
      | (none, some i) => (.checked .ok 1, shard.set i (freshEntry ip now))
      | (none, none) =>
          if shard.count < ipLimiterMaxEntriesPerShard then
            (.checked .ok 1,
              IpShard.set { shard with count := shard.count + 1 } shard.count (freshEntry ip now))
          else
            match findOldest shard (List.range shard.count) none (UInt64.ofNat (2 ^ 64 - 1)) with
            | some i => (.checked .ok 1, shard.set i (freshEntry ip now))
            | none => (.checked .rejected limit, shard)
  | .decrement ip =>
      (.done,
        match slotOf shard ip with
        | some i => shard.set i (decrementEntry (shard.entries i))
        | none => shard)
  | .sweep _ now => (.done, (compactShard now shard).2)

/-! ## Where the steps end -/

section Ends

variable (limit : UInt32) (s : Nat) (shard : IpShard)

/-- The later of two writes to a slot remains. -/
theorem set_set (i : Nat) (first second : IpEntry) :
    (shard.set i first).set i second = shard.set i second := by
  simp [IpShard.set]

/-- A slot is written with what it holds. -/
theorem set_self (i : Nat) : shard.set i (shard.entries i) = shard := by
  simp [IpShard.set]

/-- A write leaves the number of slots in use alone. -/
theorem set_size (i : Nat) (entry : IpEntry) : (shard.set i entry).count = shard.count := rfl

/-- A loop over the slots of a shard goes on with the next one. -/
theorem drop_range_of_lt {i n : Nat} (h : i < n) :
    (List.range n).drop i = i :: (List.range n).drop (i + 1) := by
  rw [List.drop_eq_getElem_cons (by simpa using h), List.getElem_range]

/-- Behind the last slot the search is at its end. -/
theorem drop_range_of_ge {i n : Nat} (h : ¬ i < n) : (List.range n).drop i = [] :=
  List.drop_of_length_le (by simpa using h)

/-- The four stores to an entry that is taken. -/
theorem taking_ends (ip : UInt32) (now : UInt64) (i : Nat) :
    Ends (sectionBody limit) s shard (.takingIp ip now i)
      (.checked .ok 1, shard.set i (freshEntry ip now)) := by
  refine .proceed rfl (.proceed rfl (.proceed rfl ?_))
  simp only [set_entry_self, set_set]
  refine .release ?_
  simp [sectionBody, sectionStep, set_entry_self, set_set, freshEntry]

/-- A check that has written its entry compares its counter with the limit. -/
theorem comparing_ends (now : UInt64) (i : Nat) (entry : IpEntry) :
    Ends (sectionBody limit) s (shard.set i entry) (.comparing now i)
      (if limit ≤ entry.count then (.checked .rejected entry.count, shard.set i entry)
      else (.checked .ok (entry.count + 1),
        shard.set i { entry with count := entry.count + 1, lastSeen := now })) := by
  split
  · rename_i hfull
    refine .release ?_
    simp [sectionBody, sectionStep, set_entry_self, hfull]
  · rename_i hroom
    have hstep : sectionStep limit (shard.set i entry) (.comparing now i) =
        (shard.set i entry, .inl (.increasing now i entry.count)) := by
      simp [sectionStep, set_entry_self, hroom]
    refine .proceed hstep (.proceed rfl (.release ?_))
    simp [sectionBody, sectionStep, set_entry_self, set_set]

/-- A check that has found the entry of its address. -/
theorem unmarking_ends (now : UInt64) (i : Nat) :
    Ends (sectionBody limit) s shard (.unmarking now i) (foundOutcome limit shard now i) := by
  by_cases hmarked : (shard.entries i).markedForDeletion = true
  · have hrevive : reviveEntry (shard.entries i) =
        { shard.entries i with markedForDeletion := false, count := 0 } := if_pos hmarked
    have hstep : sectionStep limit shard (.unmarking now i) =
        (shard.set i { shard.entries i with markedForDeletion := false }, .inl (.zeroing now i)) :=
      if_pos hmarked
    refine .proceed hstep (.proceed rfl ?_)
    rw [set_entry_self, set_set, foundOutcome, hrevive]
    exact comparing_ends limit s shard now i _
  · have hrevive : reviveEntry (shard.entries i) = shard.entries i := if_neg hmarked
    have hstep : sectionStep limit shard (.unmarking now i) =
        (shard, .inl (.comparing now i)) := if_neg hmarked
    have hends := comparing_ends limit s shard now i (shard.entries i)
    rw [set_self] at hends
    rw [foundOutcome, hrevive, set_self]
    exact .proceed hstep hends

/-- The second loop of a check, from the `i`-th slot on. -/
theorem searching_oldest_ends {ip : UInt32} {now : UInt64} {i : Nat} {oldest : Option Nat}
    {oldestTime : UInt64} {outcome : IpAnswer × IpShard}
    (h : outcome =
      match findOldest shard ((List.range shard.count).drop i) oldest oldestTime with
      | some j => (.checked .ok 1, shard.set j (freshEntry ip now))
      | none => (.checked .rejected limit, shard)) :
    Ends (sectionBody limit) s shard (.searchingOldest ip now i oldest oldestTime) outcome := by
  by_cases hi : i < shard.count
  · rw [drop_range_of_lt hi, findOldest] at h
    by_cases hidle : (shard.entries i).count = 0 ∧ (shard.entries i).lastSeen < oldestTime
    · rw [if_pos hidle] at h
      exact .proceed ((if_pos hi).trans (if_pos hidle)) (searching_oldest_ends h)
    · rw [if_neg hidle] at h
      exact .proceed ((if_pos hi).trans (if_neg hidle)) (searching_oldest_ends h)
  · rw [drop_range_of_ge hi, findOldest] at h
    subst h
    cases oldest with
    | some j => exact .proceed (if_neg hi) (taking_ends limit s shard ip now j)
    | none => exact .release (if_neg hi)
termination_by shard.count - i

/-- The first loop of a check, from the `i`-th slot on. -/
theorem searching_ends {ip : UInt32} {now : UInt64} {i : Nat} {emptySlot : Option Nat}
    (h : findSlot shard ip (List.range shard.count) none =
      findSlot shard ip ((List.range shard.count).drop i) emptySlot) :
    Ends (sectionBody limit) s shard (.searching ip now i emptySlot)
      (sectionWhole limit shard (.check ip now)) := by
  by_cases hi : i < shard.count
  · rw [drop_range_of_lt hi, findSlot] at h
    by_cases hip : (shard.entries i).ip = ip
    · rw [if_pos hip] at h
      rw [sectionWhole, h]
      exact .proceed ((if_pos hi).trans (if_pos hip)) (unmarking_ends limit s shard now i)
    · rw [if_neg hip] at h
      by_cases hidle : (shard.entries i).count = 0 ∧ emptySlot = none
      · rw [if_pos hidle] at h
        exact .proceed ((if_pos hi).trans ((if_neg hip).trans (if_pos hidle))) (searching_ends h)
      · rw [if_neg hidle] at h
        exact .proceed ((if_pos hi).trans ((if_neg hip).trans (if_neg hidle))) (searching_ends h)
  · rw [drop_range_of_ge hi, findSlot] at h
    cases emptySlot with
    | some j =>
        rw [sectionWhole, h]
        exact .proceed (if_neg hi) (taking_ends limit s shard ip now j)
    | none =>
        by_cases hroom : shard.count < ipLimiterMaxEntriesPerShard
        · simp only [sectionWhole, h, if_pos hroom]
          exact .proceed ((if_neg hi).trans (if_pos hroom)) (taking_ends limit s _ ip now _)
        · simp only [sectionWhole, h, if_neg hroom]
          exact .proceed ((if_neg hi).trans (if_neg hroom))
            (searching_oldest_ends limit s shard rfl)
termination_by shard.count - i

/-- The loop of a decrement, from the `i`-th slot on. -/
theorem seeking_ends {ip : UInt32} {i : Nat}
    (h : slotOf shard ip =
      ((List.range shard.count).drop i).find? fun i => (shard.entries i).ip = ip) :
    Ends (sectionBody limit) s shard (.seeking ip i)
      (sectionWhole limit shard (.decrement ip)) := by
  by_cases hi : i < shard.count
  · rw [drop_range_of_lt hi] at h
    by_cases hip : (shard.entries i).ip = ip
    · rw [List.find?_cons_of_pos (by simpa using hip)] at h
      rw [sectionWhole, h]
      refine .proceed ((if_pos hi).trans (if_pos hip)) (.proceed rfl (.release ?_))
      simp only [sectionBody, sectionStep, decrementEntry, set_entry_self, set_set]
      split <;> rfl
    · rw [List.find?_cons_of_neg (by simpa using hip)] at h
      exact .proceed ((if_pos hi).trans (if_neg hip)) (seeking_ends h)
  · rw [drop_range_of_ge hi, List.find?_nil] at h
    rw [sectionWhole, h]
    exact .release (if_neg hi)
termination_by shard.count - i

/-- The inner loop of a compaction, from the `j`-th slot on, with what it has removed so far. -/
theorem sweeping_ends (now : UInt64) (shard : IpShard) (j removed : Nat) :
    Ends (sectionBody limit) s shard (.sweeping now j removed)
      (.done,
        let (more, swept) := compactSlots now ((List.range shard.count).drop j) shard
        if 0 < removed + more ∧ removed + more = shard.count then { swept with count := 0 }
        else swept) := by
  by_cases hj : j < shard.count
  · rw [drop_range_of_lt hj, compactSlots]
    by_cases hexpired : expired now (shard.entries j)
    · refine .proceed ((if_pos hj).trans (if_pos hexpired)) (.proceed rfl (.proceed rfl
        (.proceed rfl ?_)))
      simp only [set_entry_self, set_set, if_pos hexpired]
      have hends := sweeping_ends now (shard.set j { shard.entries j with
        ip := 0, lastSeen := 0, markedForDeletion := false }) (j + 1) (removed + 1)
      simpa only [set_size, Nat.add_assoc, Nat.add_comm 1] using hends
    · rw [if_neg hexpired]
      exact .proceed ((if_pos hj).trans (if_neg hexpired)) (sweeping_ends now shard (j + 1) removed)
  · rw [drop_range_of_ge hj, compactSlots]
    refine .release ((if_neg hj).trans ?_)
    simp only [Nat.add_zero]
    split <;> rfl
termination_by shard.count - j
decreasing_by all_goals exact Nat.sub_succ_lt_self _ _ hj

/-- Step by step, with the shard to itself, a section does what it does as a whole. -/
theorem section_implements : (sectionBody limit).Implements (sectionWhole limit) := by
  intro shard call
  cases call with
  | check ip now => exact searching_ends limit _ shard rfl
  | decrement ip => exact seeking_ends limit _ shard rfl
  | sweep s now =>
      have hends := sweeping_ends limit s now shard 0 0
      simp only [List.drop_zero, Nat.zero_add] at hends
      simp only [sectionWhole, compactShard]
      split at hends
      · rename_i hall
        rw [if_pos hall]
        exact hends
      · rename_i hsome
        rw [if_neg hsome]
        exact hends

end Ends

/-! ## The sections one after the other -/

/-- The limiter takes a section as one step. -/
def Limiter.perform (limiter : Limiter) : SectionCall → IpAnswer × Limiter
  | .check ip now => limiter.step (.check ip now)
  | .decrement ip => limiter.step (.decrement ip)
  | .sweep s now => (.done, limiter.setShard s (compactShard now (limiter.shards s)).2)

/-- A section leaves the limit alone. -/
theorem perform_default_limit (limiter : Limiter) (call : SectionCall) :
    (limiter.perform call).2.defaultLimit = limiter.defaultLimit := by
  cases call with
  | check ip now => exact step_default_limit limiter (.check ip now)
  | decrement ip => exact step_default_limit limiter (.decrement ip)
  | sweep s now => rfl

/-- A check has to do with the shard of its address only. -/
theorem perform_check (limiter : Limiter) (ip : UInt32) (now : UInt64) :
    (sectionBody limiter.defaultLimit).atomically (sectionWhole limiter.defaultLimit)
        limiter.shards (.check ip now) =
      ((limiter.perform (.check ip now)).1, (limiter.perform (.check ip now)).2.shards) := by
  simp only [Body.atomically, sectionBody, sectionWhole, Limiter.perform, Limiter.step,
    ipLimiterCheckAndIncrement]
  rcases findSlot (limiter.shards (getShardIndex ip)) ip
    (List.range (limiter.shards (getShardIndex ip)).count) none with ⟨_ | i, _ | j⟩
  · by_cases hroom : (limiter.shards (getShardIndex ip)).count < ipLimiterMaxEntriesPerShard
    · simp [hroom, checkAbsent, Limiter.setShard]
    · simp only [checkAbsent]
      cases findOldest (limiter.shards (getShardIndex ip))
        (List.range (limiter.shards (getShardIndex ip)).count) none
        (UInt64.ofNat (2 ^ 64 - 1)) with
      | some i => simp [hroom, Limiter.setShard]
      | none => simp [hroom]
  · simp [checkAbsent, Limiter.setShard]
  all_goals
    simp only [foundOutcome, checkFound]
    split <;> simp [Limiter.setShard]

/-- A decrement, as a section, is that of the limiter. -/
theorem perform_decrement (limiter : Limiter) (ip : UInt32) :
    (sectionBody limiter.defaultLimit).atomically (sectionWhole limiter.defaultLimit)
        limiter.shards (.decrement ip) =
      ((limiter.perform (.decrement ip)).1, (limiter.perform (.decrement ip)).2.shards) := by
  have hlimiter : ipLimiterDecrement limiter ip =
      match slotOf (limiter.shards (getShardIndex ip)) ip with
      | some i => limiter.setShard (getShardIndex ip) ((limiter.shards (getShardIndex ip)).set i
          (decrementEntry ((limiter.shards (getShardIndex ip)).entries i)))
      | none => limiter := rfl
  simp only [Body.atomically, sectionBody, sectionWhole, Limiter.perform, Limiter.step, hlimiter]
  cases slotOf (limiter.shards (getShardIndex ip)) ip with
  | some i => simp [Limiter.setShard]
  | none => simp

variable {limiter : Limiter} {limit : UInt32}

/-- The sections as wholes are the steps of the limiter. -/
theorem atomically_eq_perform (hlimit : limiter.defaultLimit = limit) (call : SectionCall) :
    (sectionBody limit).atomically (sectionWhole limit) limiter.shards call =
      ((limiter.perform call).1, (limiter.perform call).2.shards) := by
  subst hlimit
  cases call with
  | check ip now => exact perform_check limiter ip now
  | decrement ip => exact perform_decrement limiter ip
  | sweep s now => rfl

/-- Sections that are taken as a whole answer and act as the limiter does. -/
theorem trace_perform (hlimit : limiter.defaultLimit = limit) (calls : List SectionCall) :
    trace ((sectionBody limit).atomically (sectionWhole limit)) limiter.shards calls =
        trace Limiter.perform limiter calls ∧
      after ((sectionBody limit).atomically (sectionWhole limit)) limiter.shards calls =
        (after Limiter.perform limiter calls).shards := by
  induction calls generalizing limiter with
  | nil => exact ⟨rfl, rfl⟩
  | cons call calls ih =>
      obtain ⟨htrace, hafter⟩ := ih ((perform_default_limit limiter call).trans hlimit)
      simp only [trace_cons, after_cons, atomically_eq_perform hlimit call]
      exact ⟨by rw [htrace], hafter⟩

/-! ## The limiter is exact -/

/-- The call a section belongs to. -/
def SectionCall.toCall : SectionCall → IpCall
  | .check ip now => .check ip now
  | .decrement ip => .decrement ip
  | .sweep _ now => .compact now

/-- What happened, as a history of the limiter. -/
def events (history : List (SectionCall × IpAnswer)) : History :=
  history.map fun event => (event.1.toCall, event.2)

/-- A section keeps the limiter exact. -/
theorem perform_inv {history : History} (h : LimiterInv limiter (loadOf history))
    (hnonneg : ∀ ip, 0 ≤ active history ip) {call : SectionCall} (hcall : call.toCall.NonZero)
    (hnext : ∀ ip, 0 ≤ active (history ++ [(call.toCall, (limiter.perform call).1)]) ip) :
    LimiterInv (limiter.perform call).2
      (loadOf (history ++ [(call.toCall, (limiter.perform call).1)])) := by
  cases call with
  | check ip now => exact step_inv h hnonneg hcall hnext
  | decrement ip => exact step_inv h hnonneg hcall hnext
  | sweep s now =>
      rw [load_of_snoc_neutral history (fun _ => rfl) (fun _ => rfl)]
      refine ⟨fun s' => ?_, h.load_le, h.limit_pos, h.limit_le⟩
      by_cases hs : s' = s
      · subst hs
        simpa [Limiter.perform, Limiter.setShard] using compact_shard_spec (h.shards s') now
      · simpa [Limiter.perform, Limiter.setShard, Function.update_of_ne hs] using h.shards s'

/-- The sections of a disciplined run keep the limiter exact. -/
theorem performed_inv {start : UInt64} {fresh : Limiter}
    (hinit : ipLimiterInit limit start = some fresh) {calls : List SectionCall}
    (hcalls : ∀ call ∈ calls, call.toCall.NonZero)
    (hdisciplined : Disciplined (events (trace Limiter.perform fresh calls))) :
    (after Limiter.perform fresh calls).defaultLimit = limit ∧
      LimiterInv (after Limiter.perform fresh calls)
        (loadOf (events (trace Limiter.perform fresh calls))) := by
  induction calls using List.reverseRecOn with
  | nil => exact init_inv hinit
  | append_singleton calls call ih =>
      rw [trace_append, events, List.map_append] at hdisciplined ⊢
      rw [after_append]
      have hpast : Disciplined (events (trace Limiter.perform fresh calls)) := fun past hpre =>
        hdisciplined past (hpre.trans (List.prefix_append _ _))
      obtain ⟨hlimit, hinv⟩ := ih (fun c hc => hcalls c (List.mem_append_left _ hc)) hpast
      refine ⟨(perform_default_limit _ call).trans hlimit, ?_⟩
      exact perform_inv hinv (hpast _ (List.prefix_refl _))
        (hcalls call (List.mem_append_right _ List.mem_cons_self))
        (hdisciplined _ (List.prefix_refl _))

/-- Exactly one slot of the shard holds the address, and its counter is `connections`. -/
def HeldIn (shard : IpShard) (ip : UInt32) (connections : Int) : Prop :=
  ∃ i < shard.count, (shard.entries i).ip = ip ∧
    ((shard.entries i).count.toNat : Int) = connections ∧
    ∀ j < shard.count, (shard.entries j).ip = ip → j = i

section Runs

variable {limit : UInt32} {start : UInt64} {fresh : Limiter}
  {labels : List (Label Nat SectionCall)}
  {s : Locked Nat IpShard SectionCall SectionPoint IpAnswer}

/-- The threads work on the limiter as if each section were one step. -/
theorem run_performs (hinit : ipLimiterInit limit start = some fresh)
    (hrun : run (Locked.next (sectionBody limit)) (.start fresh.shards) labels = some s) :
    s.history = trace Limiter.perform fresh s.done ∧
      ∀ shard, s.holder shard = none →
        s.data shard = (after Limiter.perform fresh s.done).shards shard := by
  have hserial := runs_serially (section_implements limit) hrun
  obtain ⟨htrace, hafter⟩ := trace_perform (init_inv hinit).1 s.done
  exact ⟨hserial.results.trans htrace, fun shard hfree => by rw [hserial.free hfree, hafter]⟩

/-- However the steps of the threads are interleaved, the calls are answered, and the shards nobody
is at work on are left, as by calls that are one step each, in the order in which the mutexes were
released. So with addresses other than 0 and no more decrements than connections, no address exceeds
the limit, every check is answered by the connections at the time it released its mutex, and in such
a shard every address with connections has one slot, with their number. -/
theorem exact_under_locks (hinit : ipLimiterInit limit start = some fresh)
    (hrun : run (Locked.next (sectionBody limit)) (.start fresh.shards) labels = some s) :
    (s.history = trace Limiter.perform fresh s.done ∧
      ∀ shard, s.holder shard = none →
        s.data shard = (after Limiter.perform fresh s.done).shards shard) ∧
    ((∀ call ∈ s.done, call.toCall.NonZero) → Disciplined (events s.history) →
      (∀ ip, active (events s.history) ip ≤ limit.toNat) ∧
      (∀ before later ip now result currentCount,
        s.history = before ++ (.check ip now, .checked result currentCount) :: later →
        (result = .ok ∧ (currentCount.toNat : Int) = active (events before) ip + 1 ↔
          MayConnect (events before) limit.toNat ip) ∧
        (¬ MayConnect (events before) limit.toNat ip → result = .rejected)) ∧
      ∀ ip, s.holder (getShardIndex ip) = none → 0 < active (events s.history) ip →
        HeldIn (s.data (getShardIndex ip)) ip (active (events s.history) ip)) := by
  obtain ⟨hhistory, hdata⟩ := run_performs hinit hrun
  refine ⟨⟨hhistory, hdata⟩, fun hcalls hdisciplined => ?_⟩
  have hnonneg := hdisciplined _ (List.prefix_refl _)
  obtain ⟨hlimit, hinv⟩ := performed_inv hinit hcalls (by rwa [← hhistory])
  rw [← hhistory] at hinv
  refine ⟨fun ip => ?_, fun before later ip now result currentCount hsplit => ?_,
    fun ip hfree hactive => ?_⟩
  · have hle := hinv.load_le ip
    rw [hlimit] at hle
    have := load_of_eq_active (hnonneg ip)
    omega
  · -- the sections before the check are a disciplined run of their own
    obtain ⟨hbefore, hanswer⟩ := trace_split (hhistory.symm.trans hsplit)
    have hpast : Disciplined (events before) := fun past hpre => hdisciplined past (hpre.trans (by
      rw [hsplit, events, events, List.map_append]
      exact List.prefix_append _ _))
    rw [Locked.done, hsplit, List.map_append, List.map_cons] at hcalls
    obtain ⟨hthen, hexact⟩ := performed_inv hinit
      (fun call hcall => hcalls call (List.mem_append_left _ hcall)) (by rwa [← hbefore])
    rw [← hbefore] at hexact
    have hchecks := hexact.checks_exactly (hpast _ (List.prefix_refl _)) ip now
      (hcalls (.check ip now) (List.mem_append_right _ List.mem_cons_self))
    rw [hthen] at hchecks
    obtain ⟨rfl, rfl⟩ := IpAnswer.checked.inj hanswer
    exact ⟨hchecks.1, fun hnot => (hchecks.2 hnot).1⟩
  · rw [hdata _ hfree]
    exact hinv.held_exactly hnonneg ip hactive

end Runs

/-- Two connections at once, a second one from the first address, and a decrement that is still
under way. -/
def crossingSections : List (Label Nat SectionCall) :=
  [.acquire 1 (.check 7 0), .acquire 2 (.check 8 0)] ++
    (List.replicate 5 [.step 1 51, .step 2 62]).flatten ++
    .acquire 2 (.check 7 1) :: List.replicate 3 (.step 2 51) ++
    [.acquire 1 (.decrement 7), .step 1 51]

/-- With limit 1 no address has more than one of these connections, and the second holds its own. -/
theorem crossing_sections_exact :
    ∃ fresh s, ipLimiterInit 1 0 = some fresh ∧
      run (Locked.next (sectionBody 1)) (.start fresh.shards) crossingSections = some s ∧
      (∀ ip, active (events s.history) ip ≤ 1) ∧ HeldIn (s.data (getShardIndex 8)) 8 1 := by
  obtain ⟨fresh, hinit⟩ : ∃ fresh, ipLimiterInit 1 0 = some fresh := ⟨_, rfl⟩
  obtain ⟨s, hrun, hhistory, hfree⟩ :
      ∃ s, run (Locked.next (sectionBody 1)) (.start fresh.shards) crossingSections = some s ∧
        s.history = [(.check 7 0, .checked .ok 1), (.check 8 0, .checked .ok 1),
          (.check 7 1, .checked .rejected 1)] ∧ s.holder (getShardIndex 8) = none := by
    cases hinit
    exact exists_final (by decide +kernel)
  have hcalls : ∀ call ∈ s.done, call.toCall.NonZero := by
    rw [Locked.done, hhistory]
    decide
  have hdisciplined : Disciplined (events s.history) := by
    rw [hhistory]
    exact disciplined_of_inits (by decide +kernel)
  obtain ⟨hlimit, -, hheld⟩ := (exact_under_locks hinit hrun).2 hcalls hdisciplined
  have hactive : active (events s.history) 8 = 1 := by
    rw [hhistory]
    decide +kernel
  exact ⟨fresh, s, hinit, hrun, hlimit, hactive ▸ hheld 8 hfree (by rw [hactive]; decide)⟩

end Emme.IpLimiter
