import Emme.Lifecycle.Accounts
import Mathlib.Data.Set.Card

/-!
# The limit of connections per address

The limiter counts calls; what the server is to enforce is a bound on its connections. The two agree
along every run, because each connection owes the limiter one `ip_limiter_decrement` from the answer
`IP_LIMITER_OK` on (`address_limit_enforced`).
-/

namespace Emme.Lifecycle

open Emme.IpLimiter Execution

/-- The connections of an address. -/
def State.connections (s : State) (ip : UInt32) : Nat := s.owing.countP (·.ip = ip)

/-- The addresses of a shard that have connections. -/
def State.addressesIn (s : State) (shard : Nat) : List UInt32 :=
  ((s.owing.map Client.ip).filter (getShardIndex · = shard)).dedup

/-- What the limiter is there for: a connection of this address is to be accepted. -/
def State.MayAccept (s : State) (limit : Nat) (ip : UInt32) : Prop :=
  s.connections ip < limit ∧
    (0 < s.connections ip ∨ (s.addressesIn (getShardIndex ip)).length < 256)

instance (s : State) (limit : Nat) (ip : UInt32) : Decidable (s.MayAccept limit ip) :=
  inferInstanceAs (Decidable (_ ∧ _))

section Limit

variable {s : State}

/-- An address has connections exactly if it is that of a connection that is held. -/
theorem connections_pos {ip : UInt32} : 0 < s.connections ip ↔ ip ∈ s.owing.map Client.ip := by
  simp [State.connections, List.countP_pos_iff]

/-- The loads of the limiter are the connections that are held. -/
theorem AccountsInv.load_eq (h : AccountsInv s) : loadOf s.calls = s.connections := by
  funext ip
  have hactive : active s.calls ip = s.owing.countP (·.ip = ip) := h.addresses.active_eq ip
  rw [loadOf, hactive]
  rfl

/-- The addresses that the limiter has in a shard are those of the connections. -/
theorem active_in_ncard (s : State) (shard : Nat) :
    (activeIn s.connections shard).ncard = (s.addressesIn shard).length := by
  have hset : activeIn s.connections shard = ((s.addressesIn shard).toFinset : Set UInt32) := by
    ext ip
    simp [activeIn, connections_pos, State.addressesIn, and_comm]
  have hnodup : (s.addressesIn shard).Nodup := List.nodup_dedup _
  rw [hset, Set.ncard_coe_finset, List.toFinset_card_of_nodup hnodup]

/-- The limiter admits exactly those that it is there to admit. -/
theorem admits_iff_may_accept (ip : UInt32) :
    Admits s.limiter s.connections ip ↔ s.MayAccept s.limiter.defaultLimit.toNat ip := by
  rw [Admits, active_in_ncard]
  rfl

/-- No step changes the limit. -/
theorem next_default_limit {s' : State} {label : Label} (hnext : next s label = some s') :
    s'.limiter.defaultLimit = s.limiter.defaultLimit := by
  have hbook {other : State} (hbook : s'.addresses = other.addresses) :
      s'.limiter = other.limiter := congrArg AddressBook.limiter hbook
  cases (next_moves hnext).1 with
  | keep heq _ => rw [hbook heq]
  | refuse call _ _ heq _ | enter _ _ _ _ heq _ | release _ heq _ =>
      rw [hbook heq]
      exact step_default_limit _ _

/-- A shard has at most as many addresses as slots. -/
theorem addresses_in_le {limiter : Limiter} (h : LimiterInv limiter s.connections)
    (shard : Nat) : (s.addressesIn shard).length ≤ 256 := by
  have hshard := h.shards shard
  have hsize : (limiter.shards shard).count < ipLimiterMaxEntriesPerShard + 1 :=
    Nat.lt_succ_of_le hshard.size_le
  have hlt := (hshard.holds.active_lt_iff hsize.le).mpr (.inl hsize)
  rw [shard_load_active, active_in_ncard] at hlt
  exact Nat.le_of_lt_succ hlt

/-- What the main thread does with a connection that it has accepted. -/
theorem checking_step {s' : State} {ip : UInt32} {answers : Answers}
    (h : LimiterInv s.limiter s.connections) (hip : ip ≠ 0) (hmain : s.main = .checking ip)
    (hnext : next s (.main answers) = some s') :
    (s.MayAccept s.limiter.defaultLimit.toNat ip →
        s'.main = .gettingFlags ⟨s.admitted.length, ip⟩) ∧
      (¬ s.MayAccept s.limiter.defaultLimit.toNat ip → s'.main = .testing) := by
  obtain ⟨hadmitted, hrejected, -⟩ := check_and_increment_spec h hip answers.ns
  rw [admits_iff_may_accept] at hadmitted hrejected
  simp only [next, stepMain, hmain, Limiter.step] at hnext
  refine ⟨fun hmay => ?_, fun hnot => ?_⟩
  · rw [(hadmitted hmay).1] at hnext
    cases hnext
    rfl
  · rw [(hrejected hnot).1] at hnext
    cases hnext
    rfl

end Limit

/-- A connection waits in the queue, and `accept` returns another one from the same address. -/
def twoFromOneAddress : List Label :=
  [.main {}, .main { ok := false }, .main { accept := .client 7 }, .main {}, .main { ns := 1 },
    .main {}, .main {}, .main {}, .main {}, .main {}, .main {}, .main {},
    .main {}, .main { ok := false }, .main { accept := .client 7 }, .main {}]

end Emme.Lifecycle
