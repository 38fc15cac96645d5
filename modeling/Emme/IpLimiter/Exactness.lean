import Emme.IpLimiter.Invariant

/-!
# The limiter counts exactly

The invariant holds after every run, with the load of an address equal to its OK answers minus its
decrements (`run_inv`); `ip_limiter_exact` says what that means for callers.
-/

namespace Emme.IpLimiter

open Execution KeyTable

/-! ## Runs -/

/-- The connections each address holds after a history. -/
def loadOf (history : History) (ip : UInt32) : Nat := (active history ip).toNat

/-- One more call changes the number of open connections by its admission and its decrement. -/
theorem active_snoc (history : History) (call : IpCall) (answer : IpAnswer) (ip : UInt32) :
    active (history ++ [(call, answer)]) ip =
      active history ip + (if answersOk ip (call, answer) then 1 else 0) -
        (if isDecrement ip (call, answer) then 1 else 0) := by
  simp only [active, List.countP_append, List.countP_singleton]
  push_cast
  split <;> split <;> omega

variable {call : IpCall} {history : History} {ip : UInt32} {limiter : Limiter}

/-- An event that is neither an OK answer nor a decrement changes no load. -/
theorem load_of_snoc_neutral (history : History) {answer : IpAnswer}
    (hok : ∀ ip, answersOk ip (call, answer) = false)
    (hdec : ∀ ip, isDecrement ip (call, answer) = false) :
    loadOf (history ++ [(call, answer)]) = loadOf history := by
  funext ip
  simp [loadOf, active_snoc, hok ip, hdec ip]

/-- A check that is admitted adds one to the load of its address. -/
theorem load_of_snoc_ok (hnonneg : 0 ≤ active history ip) (now : UInt64) (currentCount : UInt32) :
    loadOf (history ++ [(.check ip now, .checked .ok currentCount)]) =
      Function.update (loadOf history) ip (loadOf history ip + 1) := by
  funext ip'
  by_cases heq : ip' = ip
  · subst heq
    simp only [loadOf, active_snoc, answersOk, isDecrement, Function.update_self, decide_true,
      if_true, Bool.false_eq_true, if_false, sub_zero]
    omega
  · simp [loadOf, active_snoc, answersOk, isDecrement, Function.update_of_ne heq, Ne.symm heq]

/-- A decrement takes one from the load of its address. -/
theorem load_of_snoc_decrement (history : History) (ip : UInt32) :
    loadOf (history ++ [(.decrement ip, .done)]) =
      Function.update (loadOf history) ip (loadOf history ip - 1) := by
  funext ip'
  by_cases heq : ip' = ip
  · subst heq
    simp only [loadOf, active_snoc, answersOk, isDecrement, Function.update_self, decide_true,
      if_true, Bool.false_eq_true, if_false, add_zero]
    omega
  · simp [loadOf, active_snoc, answersOk, isDecrement, Function.update_of_ne heq, Ne.symm heq]

/-- A decrement that leaves the run disciplined is of an address with a connection. -/
theorem load_of_decremented (hnext : 0 ≤ active (history ++ [(.decrement ip, .done)]) ip) :
    0 < loadOf history ip := by
  simp only [active_snoc, answersOk, isDecrement, decide_true, if_true, Bool.false_eq_true,
    if_false, add_zero] at hnext
  unfold loadOf
  omega

/-- Every call of a disciplined run on valid addresses keeps the loads, in any way to hold them
that the compactions of the run respect. -/
theorem step_keeps {valid : UInt32 → Prop} {holds : Nat → IpShard → (UInt32 → Nat) → Prop}
    (laws : ShardLaws valid holds) (h : LimiterKeeps holds limiter (loadOf history))
    (hnonneg : ∀ ip, 0 ≤ active history ip) (hcheck : ∀ ip now, call = .check ip now → valid ip)
    (hdecrement : ∀ ip, call = .decrement ip → valid ip) (hcompact : ∀ now, call = .compact now →
      LimiterKeeps holds (ipLimiterCompact limiter now) (loadOf history))
    (hnext : ∀ ip, 0 ≤ active (history ++ [(call, (limiter.step call).1)]) ip) :
    LimiterKeeps holds (limiter.step call).2
      (loadOf (history ++ [(call, (limiter.step call).1)])) := by
  cases call with
  | check ip now =>
      obtain ⟨hadmitted, hrejected, _⟩ := check_keeps laws h (hcheck ip now rfl) now
      by_cases hadmits : Admits limiter (loadOf history) ip
      · obtain ⟨hok, _, hkeeps⟩ := hadmitted hadmits
        simp only [Limiter.step, hok]
        rw [load_of_snoc_ok (hnonneg ip)]
        exact hkeeps
      · obtain ⟨hresult, _, _, _, hkeeps⟩ := hrejected hadmits
        simp only [Limiter.step, hresult]
        rw [load_of_snoc_neutral history (fun _ => rfl) (fun _ => rfl)]
        exact hkeeps
  | decrement ip =>
      simp only [Limiter.step]
      rw [load_of_snoc_decrement]
      exact decrement_keeps laws h (hdecrement ip rfl) (load_of_decremented (hnext ip))
  | compact now =>
      simp only [Limiter.step]
      rw [load_of_snoc_neutral history (fun _ => rfl) (fun _ => rfl)]
      exact hcompact now rfl

/-- Every call of a disciplined run keeps the limiter exact. -/
theorem step_inv (h : LimiterInv limiter (loadOf history)) (hnonneg : ∀ ip, 0 ≤ active history ip)
    (hcall : call.NonZero)
    (hnext : ∀ ip, 0 ≤ active (history ++ [(call, (limiter.step call).1)]) ip) :
    LimiterInv (limiter.step call).2 (loadOf (history ++ [(call, (limiter.step call).1)])) := by
  refine limiter_inv_iff.mpr (step_keeps shard_inv_laws (limiter_inv_iff.mp h) hnonneg ?_ ?_ ?_
    hnext)
  · rintro ip now rfl
    exact hcall
  · rintro ip rfl
    exact hcall
  · rintro now rfl
    exact limiter_inv_iff.mp (compact_spec h now)

/-- A fresh limiter is exact for the empty history. -/
theorem init_inv {limit : UInt32} {now : UInt64} (hinit : ipLimiterInit limit now = some limiter) :
    limiter.defaultLimit = limit ∧ LimiterInv limiter (loadOf []) := by
  unfold ipLimiterInit at hinit
  split at hinit
  · cases hinit
  · rename_i hlimit
    cases hinit
    rw [not_or, UInt32.not_lt, UInt32.le_iff_toNat_le, ← UInt32.toNat_inj,
      UInt32.toNat_zero] at hlimit
    refine ⟨rfl, fun s => ⟨Nat.zero_le _, ?_, fun i hi => absurd hi (Nat.not_lt_zero i)⟩,
      fun ip => Nat.zero_le _, Nat.pos_of_ne_zero hlimit.1, hlimit.2⟩
    have hzero : shardLoad (loadOf []) s = fun _ => 0 := by
      funext ip
      simp [shardLoad, loadOf, active]
    rw [hzero]
    exact holds_empty _ _ _

/-- No call changes the limit. -/
theorem step_default_limit (limiter : Limiter) (call : IpCall) :
    (limiter.step call).2.defaultLimit = limiter.defaultLimit := by
  cases call with
  | check ip now =>
      simp only [Limiter.step, ipLimiterCheckAndIncrement]
      split
      · simp only [checkFound]
        split <;> rfl
      · rfl
      · split
        · rfl
        · simp only [checkAbsent]
          split <;> rfl
  | decrement ip =>
      simp only [Limiter.step, ipLimiterDecrement]
      split <;> rfl
  | compact now =>
      simp only [Limiter.step, ipLimiterCompact]
      split <;> rfl

/-- The limiter is exact after every disciplined run. -/
theorem run_inv {limit : UInt32} {now : UInt64} (hinit : ipLimiterInit limit now = some limiter)
    {calls : List IpCall} (hcalls : ∀ call ∈ calls, call.NonZero)
    (hdisciplined : Disciplined (trace Limiter.step limiter calls)) :
    (after Limiter.step limiter calls).defaultLimit = limit ∧
      LimiterInv (after Limiter.step limiter calls)
        (loadOf (trace Limiter.step limiter calls)) := by
  induction calls using List.reverseRecOn with
  | nil => exact init_inv hinit
  | append_singleton calls call ih =>
      rw [trace_append] at hdisciplined ⊢
      rw [after_append]
      have hpast : Disciplined (trace Limiter.step limiter calls) := fun past hpre =>
        hdisciplined past (hpre.trans (List.prefix_append _ _))
      obtain ⟨hlimit, hinv⟩ :=
        ih (fun c hc => hcalls c (List.mem_append_left _ hc)) hpast
      refine ⟨(step_default_limit _ call).trans hlimit, ?_⟩
      exact step_inv hinv (hpast _ (List.prefix_refl _))
        (hcalls call (List.mem_append_right _ List.mem_cons_self))
        (hdisciplined _ (List.prefix_refl _))

/-! ## What callers see -/

/-- Every address with a connection is held by exactly one slot below its shard's count, and
the counter of that slot is the number of connections. -/
def HeldExactly (limiter : Limiter) (history : History) : Prop :=
  ∀ ip, 0 < active history ip →
    ∃ i < (limiter.shards (getShardIndex ip)).count,
      ((limiter.shards (getShardIndex ip)).entries i).ip = ip ∧
      (((limiter.shards (getShardIndex ip)).entries i).count.toNat : Int) = active history ip ∧
      ∀ j < (limiter.shards (getShardIndex ip)).count,
        ((limiter.shards (getShardIndex ip)).entries j).ip = ip → j = i

/-- The address is below the limit, and it holds a connection already or fewer than 256
addresses of its shard do. -/
def MayConnect (history : History) (limit : Nat) (ip : UInt32) : Prop :=
  active history ip < limit ∧
    (0 < active history ip ∨
      {ip' | getShardIndex ip' = getShardIndex ip ∧ 0 < active history ip'}.ncard < 256)

/-- A check answers OK with the new number of connections exactly when the address may connect;
otherwise it answers REJECTED, adds one to the rejections and changes no counter. -/
def ChecksExactly (limiter : Limiter) (history : History) (limit : Nat) : Prop :=
  ∀ ip now, ip ≠ 0 →
    ((ipLimiterCheckAndIncrement limiter ip now).1 = .ok ∧
        ((ipLimiterCheckAndIncrement limiter ip now).2.1.toNat : Int) = active history ip + 1 ↔
      MayConnect history limit ip) ∧
    (¬ MayConnect history limit ip →
      (ipLimiterCheckAndIncrement limiter ip now).1 = .rejected ∧
      (ipLimiterCheckAndIncrement limiter ip now).2.2.rejectionsTotal =
        limiter.rejectionsTotal + 1 ∧
      ∀ s i, (((ipLimiterCheckAndIncrement limiter ip now).2.2.shards s).entries i).count =
        ((limiter.shards s).entries i).count)

/-- The load is the number of open connections. -/
theorem load_of_eq_active (hnonneg : 0 ≤ active history ip) :
    (loadOf history ip : Int) = active history ip :=
  Int.toNat_of_nonneg hnonneg

/-- A limiter that keeps the loads holds exactly the open connections. -/
theorem LimiterInv.held_exactly (h : LimiterInv limiter (loadOf history))
    (hnonneg : ∀ ip, 0 ≤ active history ip) : HeldExactly limiter history := by
  intro ip hactive
  have hshard := h.shards (getShardIndex ip)
  have hload : 0 < loadOf history ip := by
    have := load_of_eq_active (hnonneg ip)
    omega
  obtain ⟨hip, i, hi, hkey⟩ := hshard.holds.present ip (by rwa [shard_load_self])
  have hkey : ((limiter.shards (getShardIndex ip)).entries i).ip = ip := hkey
  refine ⟨i, hi, hkey, ?_, fun j hj hkeyj => ?_⟩
  · have hcount := hshard.holds.counter_eq i hi (by rwa [hkey])
    rw [hkey, shard_load_self] at hcount
    rw [hcount, load_of_eq_active (hnonneg ip)]
  · exact hshard.holds.unique j hj i hi (hkeyj.trans hkey.symm) (by rwa [hkeyj])

/-- A check is admitted exactly if the history allows another connection. -/
theorem admits_iff_may_connect (hnonneg : ∀ ip, 0 ≤ active history ip) (ip : UInt32) :
    Admits limiter (loadOf history) ip ↔
      MayConnect history limiter.defaultLimit.toNat ip := by
  have hset : activeIn (loadOf history) (getShardIndex ip) =
      {ip' | getShardIndex ip' = getShardIndex ip ∧ 0 < active history ip'} := by
    ext ip'
    simp only [activeIn, loadOf, Set.mem_ofPred_eq, Int.lt_toNat, Nat.cast_zero]
  have hload := load_of_eq_active (hnonneg ip)
  rw [Admits, MayConnect, hset, ← hload]
  simp only [Nat.cast_lt, Int.natCast_pos]
  rfl

/-- A limiter that keeps the loads answers a check as the history demands. -/
theorem LimiterInv.checks_exactly (h : LimiterInv limiter (loadOf history))
    (hnonneg : ∀ ip, 0 ≤ active history ip) :
    ChecksExactly limiter history limiter.defaultLimit.toNat := by
  intro ip now hip
  obtain ⟨hadm, hreject, _⟩ := check_and_increment_spec h hip now
  rw [admits_iff_may_connect hnonneg] at hadm hreject
  refine ⟨⟨fun hok => ?_, fun hmay => ?_⟩, fun hnot => ?_⟩
  · by_contra hnot
    rw [(hreject hnot).1] at hok
    exact absurd hok.1 (by decide)
  · obtain ⟨hok, hcount, _⟩ := hadm hmay
    refine ⟨hok, ?_⟩
    rw [hcount, Nat.cast_add, Nat.cast_one, load_of_eq_active (hnonneg ip)]
  · obtain ⟨hrejected, htotal, hsame, _⟩ := hreject hnot
    exact ⟨hrejected, htotal, hsame⟩

/-- For every limit in 1..10000, after every disciplined run over non-zero addresses no address
exceeds the limit, every address with connections is in exactly one slot with their number, and
checks are answered by that number and by the number of active addresses of the shard. -/
theorem ip_limiter_exact {limit : UInt32} (hpos : 1 ≤ limit.toNat) (hmax : limit.toNat ≤ 10000)
    (start : UInt64) :
    ∃ fresh, ipLimiterInit limit start = some fresh ∧
      ∀ calls, (∀ call ∈ calls, IpCall.NonZero call) →
        Disciplined (trace Limiter.step fresh calls) →
        (∀ ip, active (trace Limiter.step fresh calls) ip ≤ limit.toNat) ∧
        HeldExactly (after Limiter.step fresh calls) (trace Limiter.step fresh calls) ∧
        ChecksExactly (after Limiter.step fresh calls) (trace Limiter.step fresh calls)
          limit.toNat := by
  have hlimit : ¬ (limit = 0 ∨ ipLimiterMaxConnectionsPerIp < limit) := by
    rw [not_or, UInt32.not_lt, UInt32.le_iff_toNat_le, ← UInt32.toNat_inj]
    exact ⟨Nat.ne_of_gt hpos, hmax⟩
  refine ⟨_, if_neg hlimit, fun calls hcalls hdisciplined => ?_⟩
  have hnonneg := hdisciplined _ (List.prefix_refl _)
  obtain ⟨hdefault, hinv⟩ := run_inv (if_neg hlimit) hcalls hdisciplined
  refine ⟨fun ip => ?_, hinv.held_exactly hnonneg, ?_⟩
  · have hle := hinv.load_le ip
    rw [hdefault] at hle
    have := load_of_eq_active (hnonneg ip)
    omega
  · have hchecks := hinv.checks_exactly hnonneg
    rwa [hdefault] at hchecks

/-- The address an event decrements. -/
def decremented : IpCall × IpAnswer → Option UInt32
  | (.decrement ip, _) => some ip
  | _ => none

/-- Only the addresses that are decremented have to be looked at. -/
theorem disciplined_of_inits (h : (history.inits.all fun past =>
      (history.filterMap decremented).all fun ip => 0 ≤ active past ip) = true) :
    Disciplined history := by
  intro past hpast ip
  by_cases hip : ip ∈ history.filterMap decremented
  · have hpasts := List.all_eq_true.mp h past ((List.mem_inits past history).mpr hpast)
    exact of_decide_eq_true (List.all_eq_true.mp hpasts ip hip)
  · have hnone : past.countP (isDecrement ip) = 0 := by
      rw [List.countP_eq_zero]
      intro event hevent hdec
      refine hip (List.mem_filterMap.mpr ⟨event, hpast.subset hevent, ?_⟩)
      obtain ⟨call, answer⟩ := event
      cases call with
      | check ip' now => simp [isDecrement] at hdec
      | decrement ip' => simpa [isDecrement, decremented] using hdec
      | compact now => simp [isDecrement] at hdec
    rw [active, hnone]
    omega

/-- Two connections from one address at limit 1: the second is rejected, and after a decrement
and a compaction the address connects again. -/
def exampleCalls : List IpCall :=
  [.check 7 0, .check 7 1, .decrement 7, .compact 100000000000]

/-- The answers to the example calls. -/
theorem example_history (fresh : Limiter) (hinit : ipLimiterInit 1 0 = some fresh) :
    trace Limiter.step fresh exampleCalls =
      [(.check 7 0, .checked .ok 1), (.check 7 1, .checked .rejected 1), (.decrement 7, .done),
        (.compact 100000000000, .done)] := by
  cases hinit
  decide +kernel

/-- The example calls decrement only what has been admitted. -/
theorem example_disciplined (fresh : Limiter) (hinit : ipLimiterInit 1 0 = some fresh) :
    Disciplined (trace Limiter.step fresh exampleCalls) := by
  rw [example_history fresh hinit]
  exact disciplined_of_inits (by decide +kernel)

/-- With limit 1 no address of the example has more than one connection. -/
theorem ip_limiter_exact_example :
    ∃ fresh, ipLimiterInit 1 0 = some fresh ∧
      ∀ ip, active (trace Limiter.step fresh exampleCalls) ip ≤ 1 := by
  obtain ⟨fresh, hinit, hall⟩ := ip_limiter_exact (show 1 ≤ UInt32.toNat 1 by decide)
    (show UInt32.toNat 1 ≤ 10000 by decide) 0
  exact ⟨fresh, hinit,
    (hall exampleCalls (by decide) (example_disciplined fresh hinit)).1⟩

end Emme.IpLimiter
