import Emme.IpLimiter.Exactness
import Emme.Lib.FirstSlots

/-!
# Whether clients notice a compaction

A compaction writes the address 0 into the slots it removes, and 0 is an address that
`ip_limiter_check_and_increment` accepts. `LimiterTracks` survives this: the slots in use are the
first ones of their addresses and hold their loads. A compaction keeps it unless it clears a slot in
front of one in which 0 holds connections; then the next check on 0 is answered wrongly.
`compactions_hidden` says so for whole runs.
-/

namespace Emme.IpLimiter

open Execution FirstSlots

/-! ## The invariant -/

/-- The slots of a shard in use are the first ones of their addresses and hold the loads, and a
mark is on idle slots only. -/
structure ShardTracks (s : Nat) (shard : IpShard) (load : UInt32 → Nat) : Prop where
  size_le : shard.count ≤ ipLimiterMaxEntriesPerShard
  tracks : Tracks (fun i => (shard.entries i).ip) (fun i => (shard.entries i).count.toNat)
    shard.count (shardLoad load s)
  marked : ∀ i < shard.count, (shard.entries i).markedForDeletion = true →
    (shard.entries i).count = 0

/-- Every shard tracks its loads, and no load exceeds the limit. -/
abbrev LimiterTracks (limiter : Limiter) (load : UInt32 → Nat) : Prop :=
  LimiterKeeps ShardTracks limiter load

variable {shard : IpShard} {ip : UInt32} {i : Nat} {load : UInt32 → Nat} {now : UInt64}
  {limiter left right : Limiter} {call : IpCall}

/-- The slot at which the loops stop is the first one of its address. -/
theorem slot_of_first (h : slotOf shard ip = some i) :
    IsFirst (fun j => (shard.entries j).ip) i := by
  obtain ⟨_, hkey, hbefore⟩ := slot_of_some h
  intro j hj
  show (shard.entries j).ip ≠ (shard.entries i).ip
  rw [hkey]
  exact hbefore j hj

/-- Counting in the first slot of an address. -/
theorem ShardTracks.set_count_of (h : ShardTracks (getShardIndex ip) shard load)
    (hslot : slotOf shard ip = some i) {entry : IpEntry} (hentry : entry.ip = ip)
    (hmark : entry.markedForDeletion = true → entry.count = 0) :
    ShardTracks (getShardIndex ip) (shard.set i entry)
      (Function.update load ip entry.count.toNat) where
  size_le := h.size_le
  tracks := by
    obtain ⟨hi, hkey, _⟩ := slot_of_some hslot
    have hset := h.tracks.set_counter hi (slot_of_first hslot) entry.count.toNat
    rw [set_ip_same (hkey.trans hentry.symm), set_count, shard_load_update_self]
    rwa [hkey] at hset
  marked := set_marked h.marked i hmark

/-- Giving an idle slot to an address without one. -/
theorem ShardTracks.reuse (h : ShardTracks (getShardIndex ip) shard load) (hi : i < shard.count)
    (hfree : (shard.entries i).count = 0) (habsent : ∀ j < shard.count, (shard.entries j).ip ≠ ip)
    (now : UInt64) :
    ShardTracks (getShardIndex ip) (shard.set i (freshEntry ip now))
      (Function.update load ip 1) where
  size_le := h.size_le
  tracks := by
    rw [set_ip, set_count, shard_load_update_self]
    exact h.tracks.reuse hi (by simp [hfree]) (fun j hj _ => habsent j hj) 1
  marked := set_marked h.marked i (by simp [freshEntry])

/-- Adding a slot for an address without one. -/
theorem ShardTracks.append (h : ShardTracks (getShardIndex ip) shard load)
    (hroom : shard.count < ipLimiterMaxEntriesPerShard)
    (habsent : ∀ j < shard.count, (shard.entries j).ip ≠ ip) (now : UInt64) :
    ShardTracks (getShardIndex ip)
      (IpShard.set { shard with count := shard.count + 1 } shard.count (freshEntry ip now))
      (Function.update load ip 1) where
  size_le := hroom
  tracks := by
    rw [set_ip, set_count, shard_load_update_self]
    exact h.tracks.append habsent 1
  marked := append_marked h.marked ip now

/-- Tracking is a way to hold the loads of all addresses. -/
theorem shard_tracks_laws : ShardLaws (fun _ => True) ShardTracks where
  marked h := h.marked
  congr h hload := ⟨h.size_le, hload ▸ h.tracks, h.marked⟩
  active_lt_iff {s shard load} h := by
    have hactive := h.tracks.active_lt_iff h.size_le
    rw [shard_load_active] at hactive
    rw [hactive]
    simp only [← UInt32.toNat_inj, UInt32.toNat_zero]
  count_of_slot {shard load ip i} h _ hslot := by
    obtain ⟨hi, hkey, _⟩ := slot_of_some hslot
    have hcount := h.tracks.counter_eq hi (slot_of_first hslot)
    rwa [hkey, shard_load_self] at hcount
  load_of_absent {shard load ip} h hslot := by
    have hload := h.tracks.total_eq_zero fun i hi _ => slot_of_none hslot i hi
    rwa [shard_load_self] at hload
  rewrite h _ hslot hentry hmark := h.set_count_of hslot hentry hmark
  reuse h _ hslot hi hidle now := h.reuse hi hidle (slot_of_none hslot) now
  append h _ hslot hroom now := h.append hroom (slot_of_none hslot) now

/-! ## The compaction -/

/-- In this shard no entry expires in front of one in which the address 0 holds connections. -/
def ClearsBehindZero (now : UInt64) (shard : IpShard) : Prop :=
  ∀ j < shard.count, (shard.entries j).ip = 0 → (shard.entries j).count ≠ 0 →
    ∀ i < j, ¬ expired now (shard.entries i)

instance (now : UInt64) (shard : IpShard) : Decidable (ClearsBehindZero now shard) :=
  inferInstanceAs (Decidable (∀ _ < _, _))

/-- One round of the outer loop keeps the loads of the shard unless a cleared slot comes before
one of the address 0. -/
theorem compact_shard_tracked {s : Nat} (h : ShardTracks s shard load)
    (hbehind : ClearsBehindZero now shard) : ShardTracks s (compactShard now shard).2 load := by
  have hswept : Tracks (fun i => (sweepEntry now (shard.entries i)).ip)
      (fun i => (shard.entries i).count.toNat) shard.count (shardLoad load s) := by
    refine h.tracks.rekey fun j hj hpos => ?_
    have hkept := sweep_busy now hpos
    refine ⟨by rw [hkept], fun i hij => ?_⟩
    show (sweepEntry now (shard.entries i)).ip ≠ (sweepEntry now (shard.entries j)).ip
    rw [hkept]
    by_cases hexpired : expired now (shard.entries i)
    · -- slot `i` now reads 0, so slot `j` must be of another address
      rw [sweepEntry, if_pos hexpired]
      intro hzero
      refine hbehind j hj hzero.symm (fun hidle => ?_) i hij hexpired
      rw [hidle] at hpos
      exact absurd hpos (Nat.lt_irrefl 0)
    · rw [sweepEntry, if_neg hexpired]
      exact (h.tracks.first j hj hpos).2 i hij
  have hentries : Tracks
      (fun i => (if i < shard.count then sweepEntry now (shard.entries i)
        else shard.entries i).ip)
      (fun i => (if i < shard.count then sweepEntry now (shard.entries i)
        else shard.entries i).count.toNat) shard.count (shardLoad load s) := by
    refine hswept.congr (fun i hi => by rw [if_pos hi]) fun i hi => ?_
    rw [if_pos hi, sweep_count]
  rw [compact_shard_eq]
  by_cases hexpired : ∀ i < shard.count, expired now (shard.entries i)
  · simp only [if_pos hexpired]
    refine ⟨Nat.zero_le _, hentries.reset fun i hi => ?_,
      fun i hi => absurd hi (Nat.not_lt_zero i)⟩
    rw [if_pos hi, sweep_count, (hexpired i hi).2.1]
    rfl
  · simp only [if_neg hexpired]
    exact ⟨h.size_le, hentries, swept_marked h.marked now⟩

/-- A call spares the address 0: a compaction that is due clears no slot in front of one in which
0 holds connections. Other calls clear nothing. -/
def SparesZero (limiter : Limiter) : IpCall → Prop
  | .compact now =>
      now - limiter.lastCompaction < compactionIntervalNs ∨
        ClearsBehindZero now (limiter.shards (getShardIndex 0))
  | _ => True

instance (limiter : Limiter) : ∀ call, Decidable (SparesZero limiter call)
  | .compact _ => inferInstanceAs (Decidable (_ ∨ _))
  | .check _ _ => isTrue trivial
  | .decrement _ => isTrue trivial

/-- `ip_limiter_compact` changes no load if it spares the address 0. -/
theorem compact_tracked (h : LimiterTracks limiter load)
    (hspares : SparesZero limiter (.compact now)) :
    LimiterTracks (ipLimiterCompact limiter now) load := by
  simp only [ipLimiterCompact]
  split
  · exact h
  · rename_i hdue
    refine ⟨fun s => compact_shard_tracked (h.shards s) ?_, h.load_le, h.limit_pos, h.limit_le⟩
    by_cases hs : s = getShardIndex 0
    · subst hs
      exact hspares.resolve_left hdue
    · -- in other shards no slot of the address 0 is in use
      intro j hj hzero hbusy
      have hpos : 0 < ((limiter.shards s).entries j).count.toNat :=
        Nat.pos_of_ne_zero fun heq => hbusy (UInt32.toNat_inj.mp heq)
      have hload := ((h.shards s).tracks.first j hj hpos).1
      rw [hzero, shardLoad, if_neg (Ne.symm hs)] at hload
      omega

/-- A check whose loop stops at an idle slot starts to count at 1. -/
theorem check_idle_answer (hlimit : 0 < limiter.defaultLimit.toNat) {k : Nat}
    (hslot : slotOf (limiter.shards (getShardIndex ip)) ip = some k)
    (hidle : ((limiter.shards (getShardIndex ip)).entries k).count = 0) (now : UInt64) :
    (limiter.step (.check ip now)).1 = .checked .ok 1 := by
  have hrevived : (reviveEntry ((limiter.shards (getShardIndex ip)).entries k)).count =
      ((limiter.shards (getShardIndex ip)).entries k).count := revive_count fun _ => hidle
  rw [hidle] at hrevived
  have hroom : ¬ limiter.defaultLimit ≤ 0 := by
    rw [UInt32.le_iff_toNat_le, UInt32.toNat_zero]
    omega
  have hbranch := check_branch limiter ip now
  simp only [Limiter.step]
  generalize ipLimiterCheckAndIncrement limiter ip now = outcome at hbranch ⊢
  cases hbranch with
  | found i hfound =>
      rw [hslot] at hfound
      cases hfound
      simp only [checkFound, hrevived, if_neg hroom]
      rfl
  | reused i hnone => cases hslot.symm.trans hnone
  | added hnone => cases hslot.symm.trans hnone
  | full hnone => cases hslot.symm.trans hnone

/-- After a compaction that does not spare the address 0, the next check on it finds a cleared
slot and starts to count again, although 0 holds connections. -/
theorem check_hidden_zero (h : LimiterTracks limiter load)
    (hnot : ¬ SparesZero limiter (.compact now)) (later : UInt64) :
    0 < load 0 ∧ ((ipLimiterCompact limiter now).step (.check 0 later)).1 = .checked .ok 1 := by
  simp only [SparesZero, ClearsBehindZero, not_or, not_forall, not_not] at hnot
  obtain ⟨hdue, j, hj, hzero, hbusy, i, hij, hexpired⟩ := hnot
  set shard := limiter.shards (getShardIndex 0) with hshard
  have hpos : 0 < (shard.entries j).count.toNat :=
    Nat.pos_of_ne_zero fun heq => hbusy (UInt32.toNat_inj.mp heq)
  obtain ⟨hcount, hfirst⟩ := (h.shards (getShardIndex 0)).tracks.first j hj hpos
  rw [← hshard, hzero, shard_load_self] at hcount
  refine ⟨by omega, ?_⟩
  -- the shard keeps its length, since slot `j` is in use
  have hkept : ¬ ∀ i < shard.count, expired now (shard.entries i) := fun hall =>
    hbusy (hall j hj).2.1
  have hswept : (ipLimiterCompact limiter now).shards (getShardIndex 0) =
      { entries := fun i =>
          if i < shard.count then sweepEntry now (shard.entries i) else shard.entries i
        count := shard.count } := by
    simp only [ipLimiterCompact, if_neg hdue, ← hshard, compact_shard_eq, if_neg hkept]
  set swept := (ipLimiterCompact limiter now).shards (getShardIndex 0) with hsweptdef
  have hentry : ∀ i < shard.count, swept.entries i = sweepEntry now (shard.entries i) := by
    intro i hi
    rw [hswept]
    exact if_pos hi
  have hcleared : (swept.entries i).ip = 0 := by
    rw [hentry i (hij.trans hj), sweepEntry, if_pos hexpired]
    rfl
  -- the loop of the check stops at the cleared slot `i` or before it
  cases hslot : slotOf swept 0 with
  | none =>
      have hlength : swept.count = shard.count := by rw [hswept]
      exact absurd hcleared (slot_of_none hslot i (hlength ▸ hij.trans hj))
  | some k =>
      obtain ⟨_, hkey, hbefore⟩ := slot_of_some hslot
      have hki : k ≤ i := by
        by_contra hlt
        exact hbefore i (Nat.lt_of_not_le hlt) hcleared
      have hkj : k < j := lt_of_le_of_lt hki hij
      have hlimit : (ipLimiterCompact limiter now).defaultLimit = limiter.defaultLimit :=
        step_default_limit limiter (.compact now)
      refine check_idle_answer (hlimit ▸ h.limit_pos) hslot ?_ later
      rw [← hsweptdef]
      rw [hentry k (hkj.trans hj)] at hkey ⊢
      rw [sweep_count]
      -- a slot in use here would come before `j` with the same address
      by_contra hne
      have hkpos : 0 < (shard.entries k).count.toNat :=
        Nat.pos_of_ne_zero fun heq => hne (UInt32.toNat_inj.mp heq)
      rw [sweep_busy now hkpos] at hkey
      exact hfirst k hkj (hkey.trans hzero.symm)

/-! ## Runs with and without compactions -/

/-- The call is a client's: a check or a decrement. -/
def isClient : IpCall → Bool
  | .compact _ => false
  | _ => true

/-- The answers to the clients are those of the run without the compactions. -/
def CompactionsHidden (limiter : Limiter) (calls : List IpCall) : Prop :=
  (trace Limiter.step limiter calls).filter (fun event => isClient event.1) =
    trace Limiter.step limiter (calls.filter isClient)

instance (limiter : Limiter) (calls : List IpCall) : Decidable (CompactionsHidden limiter calls) :=
  inferInstanceAs (Decidable (_ = _))

/-- Limiters that track the same loads answer every call alike. -/
theorem step_answer_eq (hleft : LimiterTracks left load) (hright : LimiterTracks right load)
    (hlimit : right.defaultLimit = left.defaultLimit) (call : IpCall) :
    (right.step call).1 = (left.step call).1 := by
  cases call with
  | check ip now =>
      obtain ⟨hok, hrejected, _⟩ := check_keeps shard_tracks_laws hleft trivial now
      obtain ⟨hok', hrejected', _⟩ := check_keeps shard_tracks_laws hright trivial now
      have hsame : Admits right load ip ↔ Admits left load ip := by rw [Admits, Admits, hlimit]
      simp only [Limiter.step]
      by_cases hadmits : Admits left load ip
      · obtain ⟨hresult, hcount, _⟩ := hok hadmits
        obtain ⟨hresult', hcount', _⟩ := hok' (hsame.mpr hadmits)
        rw [hresult, hresult', UInt32.toNat_inj.mp (hcount'.trans hcount.symm)]
      · obtain ⟨hresult, hcount, _⟩ := hrejected hadmits
        obtain ⟨hresult', hcount', _⟩ := hrejected' (mt hsame.mp hadmits)
        rw [hresult, hresult', hcount, hcount', hlimit]
  | decrement ip => rfl
  | compact now => rfl

/-- Every call of a disciplined run that spares the address 0 keeps the loads tracked. -/
theorem step_tracked {history : History} (h : LimiterTracks limiter (loadOf history))
    (hnonneg : ∀ ip, 0 ≤ active history ip) (hspares : SparesZero limiter call)
    (hnext : ∀ ip, 0 ≤ active (history ++ [(call, (limiter.step call).1)]) ip) :
    LimiterTracks (limiter.step call).2 (loadOf (history ++ [(call, (limiter.step call).1)])) := by
  refine step_keeps shard_tracks_laws h hnonneg (fun _ _ _ => trivial) (fun _ _ => trivial) ?_ hnext
  rintro now rfl
  exact compact_tracked h hspares

/-- Both limiters track the loads of the past, under the same limit. -/
structure Alike (past : History) (left right : Limiter) : Prop where
  nonneg : ∀ ip, 0 ≤ active past ip
  limit_eq : right.defaultLimit = left.defaultLimit
  left_tracks : LimiterTracks left (loadOf past)
  right_tracks : LimiterTracks right (loadOf past)

/-- A client's call on both limiters is answered alike and keeps them alike. -/
theorem Alike.client {past : History} (h : Alike past left right) (hcall : isClient call = true)
    (hnext : ∀ ip, 0 ≤ active (past ++ [(call, (left.step call).1)]) ip) :
    (right.step call).1 = (left.step call).1 ∧
      Alike (past ++ [(call, (left.step call).1)]) (left.step call).2 (right.step call).2 := by
  have hanswer := step_answer_eq h.left_tracks h.right_tracks h.limit_eq call
  have hspares : ∀ limiter, SparesZero limiter call := by
    intro limiter
    cases call with
    | check ip now => trivial
    | decrement ip => trivial
    | compact now => cases hcall
  refine ⟨hanswer, hnext, ?_, step_tracked h.left_tracks h.nonneg (hspares left) hnext, ?_⟩
  · rw [step_default_limit, step_default_limit, h.limit_eq]
  · rw [← hanswer]
    exact step_tracked h.right_tracks h.nonneg (hspares right) (hanswer ▸ hnext)

/-- A compaction of the right limiter alone that spares the address 0 keeps them alike. -/
theorem Alike.hidden {past : History} (h : Alike past left right) (hcall : isClient call = false)
    (hspares : SparesZero right call) : Alike past left (right.step call).2 := by
  cases call with
  | check ip now => cases hcall
  | decrement ip => cases hcall
  | compact now =>
      exact ⟨h.nonneg, (step_default_limit right (.compact now)).trans h.limit_eq, h.left_tracks,
        compact_tracked h.right_tracks hspares⟩

/-- A fresh limiter tracks the loads of the empty history. -/
theorem init_tracked {limit : UInt32} (hinit : ipLimiterInit limit now = some limiter) :
    LimiterTracks limiter (loadOf []) := by
  obtain ⟨_, hinv⟩ := init_inv hinit
  have hempty : ∀ s, (limiter.shards s).count = 0 := by
    unfold ipLimiterInit at hinit
    split at hinit
    · cases hinit
    · cases hinit
      exact fun s => rfl
  refine ⟨fun s => ⟨(hinv.shards s).size_le, ?_, (hinv.shards s).marked⟩, hinv.load_le,
    hinv.limit_pos, hinv.limit_le⟩
  have hzero : shardLoad (loadOf []) s = fun _ => 0 := by
    funext ip
    simp [shardLoad, loadOf, active]
  rw [hzero, hempty s]
  exact tracks_empty _ _

/-- The answers to the clients and the limiters at the end of a run whose compactions spare the
address 0. -/
theorem run_alike {limit : UInt32} {start : UInt64} {fresh : Limiter}
    (hinit : ipLimiterInit limit start = some fresh) {calls : List IpCall}
    (hdisciplined : Disciplined (trace Limiter.step fresh (calls.filter isClient)))
    (hspares : Along Limiter.step SparesZero fresh calls) :
    CompactionsHidden fresh calls ∧
      Alike (trace Limiter.step fresh (calls.filter isClient))
        (after Limiter.step fresh (calls.filter isClient))
        (after Limiter.step fresh calls) := by
  have hfresh := init_tracked hinit
  have hstart : Alike [] fresh fresh := ⟨fun ip => Int.le_refl 0, rfl, hfresh, hfresh⟩
  exact trace_filter_visible (fun past left right call h => h.client)
    (fun past left right call h => h.hidden) hstart hdisciplined hspares

/-- Compactions are hidden from the clients of a disciplined run over any addresses as long as
none clears a slot in front of one in which the address 0 holds connections. The first compaction
that does so shows at the next check on 0. -/
theorem compactions_hidden {limit : UInt32} {start : UInt64} {fresh : Limiter}
    (hinit : ipLimiterInit limit start = some fresh) {calls : List IpCall}
    (hdisciplined : Disciplined (trace Limiter.step fresh (calls.filter isClient)))
    (hspares : Along Limiter.step SparesZero fresh calls) :
    CompactionsHidden fresh calls ∧
      ∀ now later, CompactionsHidden fresh (calls ++ [.compact now, .check 0 later]) ↔
        SparesZero (after Limiter.step fresh calls) (.compact now) := by
  obtain ⟨hhidden, halike⟩ := run_alike hinit hdisciplined hspares
  refine ⟨hhidden, fun now later => ?_⟩
  -- the run goes on with one compaction and one check on 0, the run without it with the check
  have hsplit : CompactionsHidden fresh (calls ++ [.compact now, .check 0 later]) ↔
      ((ipLimiterCompact (after Limiter.step fresh calls) now).step (.check 0 later)).1 =
        ((after Limiter.step fresh (calls.filter isClient)).step (.check 0 later)).1 := by
    have hhidden : (trace Limiter.step fresh calls).filter (fun event => isClient event.1) =
      trace Limiter.step fresh (calls.filter isClient) := hhidden
    have hclient : [IpCall.compact now, .check 0 later].filter isClient = [.check 0 later] := rfl
    rw [CompactionsHidden, trace_append, List.filter_append, hhidden, List.filter_append,
      trace_append, List.append_cancel_left_eq, hclient]
    simp [trace, isClient, Limiter.step]
  rw [hsplit]
  constructor
  · intro hsame
    by_contra hnot
    obtain ⟨hload, hanswer⟩ := check_hidden_zero halike.right_tracks hnot later
    obtain ⟨hok, hrejected, _⟩ : CheckKeeps ShardTracks
        (after Limiter.step fresh (calls.filter isClient))
        (loadOf (trace Limiter.step fresh (calls.filter isClient))) 0 _ :=
      check_keeps shard_tracks_laws halike.left_tracks trivial later
    rw [hanswer] at hsame
    simp only [Limiter.step, IpAnswer.checked.injEq] at hsame
    by_cases hadmits : Admits (after Limiter.step fresh (calls.filter isClient))
        (loadOf (trace Limiter.step fresh (calls.filter isClient))) 0
    · have hcount := (hok hadmits).2.1
      rw [← hsame.2, UInt32.toNat_one] at hcount
      omega
    · rw [(hrejected hadmits).1] at hsame
      cases hsame.1
  · intro hclears
    exact step_answer_eq halike.left_tracks (compact_tracked halike.right_tracks hclears)
      ((step_default_limit _ (.compact now)).trans halike.limit_eq) (.check 0 later)

/-- Address 154, of the shard of 0, connects, 0 connects behind it, 154 leaves, and the compaction
comes early: too early to clear the slot of 154, or while 0 holds no connection. -/
def sparingCalls : List IpCall :=
  [.check 154 0, .check 0 0, .decrement 154, .compact 50000000000, .check 0 50000000000,
    .decrement 0, .decrement 0, .compact 120000000000, .check 0 120000000000]

/-- Calls whose compactions the clients cannot see. -/
theorem sparing_calls_hidden :
    ∃ fresh, ipLimiterInit 10 0 = some fresh ∧ CompactionsHidden fresh sparingCalls := by
  obtain ⟨fresh, hinit⟩ : ∃ fresh, ipLimiterInit 10 0 = some fresh := ⟨_, rfl⟩
  refine ⟨fresh, hinit, (compactions_hidden hinit ?_ ?_).1⟩
  · cases hinit
    exact disciplined_of_inits (by decide +kernel)
  · cases hinit
    decide +kernel

/-- As before, but the compaction comes when the slot of 154 has expired and 0 holds a
connection. -/
def clearingCalls : List IpCall :=
  [.check 154 0, .check 0 0, .decrement 154, .compact 70000000000, .check 0 70000000000]

/-- The slot of 154 becomes a second slot of the address 0, in front of the one in use: the check
answers 1 although 0 holds a connection, and 2 without the compaction. -/
theorem clearing_compaction_shows :
    ∃ fresh, ipLimiterInit 10 0 = some fresh ∧
      Disciplined (trace Limiter.step fresh (clearingCalls.filter isClient)) ∧
      trace Limiter.step fresh (clearingCalls.filter isClient) =
        [(.check 154 0, .checked .ok 1), (.check 0 0, .checked .ok 1), (.decrement 154, .done),
          (.check 0 70000000000, .checked .ok 2)] ∧
      trace Limiter.step fresh clearingCalls =
        [(.check 154 0, .checked .ok 1), (.check 0 0, .checked .ok 1), (.decrement 154, .done),
          (.compact 70000000000, .done), (.check 0 70000000000, .checked .ok 1)] ∧
      ¬ CompactionsHidden fresh clearingCalls := by
  obtain ⟨fresh, hinit⟩ : ∃ fresh, ipLimiterInit 10 0 = some fresh := ⟨_, rfl⟩
  refine ⟨fresh, hinit, ?_⟩
  cases hinit
  exact ⟨disciplined_of_inits (by decide +kernel), by decide +kernel, by decide +kernel,
    by decide +kernel⟩

end Emme.IpLimiter
