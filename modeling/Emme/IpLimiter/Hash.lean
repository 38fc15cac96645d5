import Emme.IpLimiter.Limiter
import Emme.Lib.Mixing
import Mathlib.Data.FinEnum

/-!
# The hash of addresses

`hash_ip` alternates products with an odd constant and xor-shifts, each of which can be undone, so
no two addresses have the same hash. The shard of an address is the low byte of its hash, and every
shard is that of the same number of addresses: `shards_balanced`.
-/

namespace Emme.IpLimiter

open Mixing

/-- The inverse of `KNUTH_MULTIPLICATIVE_CONSTANT` modulo `2 ^ 32`. -/
def knuthInverse : UInt32 := 244002641

/-- The constant has an inverse, since it is odd. -/
theorem knuth_mul_inverse : knuthMultiplicativeConstant * knuthInverse = 1 := by decide

/-- The step `ip ^= (ip >> 16)`. -/
def foldHalf (ip : UInt32) : UInt32 := ip ^^^ (ip >>> 16)

/-- The step `ip *= KNUTH_MULTIPLICATIVE_CONSTANT`. -/
def knuthMul (ip : UInt32) : UInt32 := ip * knuthMultiplicativeConstant

/-- `hash_ip` is a composition of multiplications and folds. -/
theorem hash_ip_eq : hashIp = knuthMul ∘ foldHalf ∘ knuthMul ∘ foldHalf ∘ knuthMul := rfl

/-- The multiplication loses nothing. -/
theorem knuth_mul_injective : Function.Injective knuthMul :=
  mul_left_injective_of_inverse knuth_mul_inverse

/-- The fold is an xor with a shift. -/
theorem to_bit_vec_fold_half (ip : UInt32) :
    (foldHalf ip).toBitVec = xorShift 16 ip.toBitVec := by
  unfold foldHalf xorShift
  rw [UInt32.toBitVec_xor, UInt32.toBitVec_shiftRight]
  rfl

/-- The fold undoes itself. -/
theorem fold_half_involutive : Function.Involutive foldHalf := by
  intro ip
  apply UInt32.toBitVec_inj.mp
  rw [to_bit_vec_fold_half, to_bit_vec_fold_half]
  exact xor_shift_involutive (by decide) ip.toBitVec

/-- `hash_ip` loses nothing. -/
theorem hash_injective : Function.Injective hashIp := by
  have hfold := fold_half_involutive.injective
  rw [hash_ip_eq]
  exact knuth_mul_injective.comp
    (hfold.comp (knuth_mul_injective.comp (hfold.comp knuth_mul_injective)))

/-- The address with this hash. -/
def unhashIp (hash : UInt32) : UInt32 :=
  foldHalf (foldHalf (hash * knuthInverse) * knuthInverse) * knuthInverse

/-- The inverse is one on both sides. -/
theorem hash_unhash (hash : UInt32) : hashIp (unhashIp hash) = hash := by
  have hundo (ip : UInt32) : knuthMul (ip * knuthInverse) = ip := by
    unfold knuthMul
    rw [UInt32.mul_assoc, UInt32.mul_comm knuthInverse, knuth_mul_inverse, UInt32.mul_one]
  unfold unhashIp
  rw [hash_ip_eq]
  simp only [Function.comp_apply, hundo, fold_half_involutive _]

/-- The shard is the hash modulo the number of shards. -/
theorem get_shard_index_eq (ip : UInt32) : getShardIndex ip = (hashIp ip).toNat % 256 := by
  unfold getShardIndex
  rw [UInt32.toNat_and]
  exact Nat.and_two_pow_sub_one_eq_mod (hashIp ip).toNat 8

/-- **The shards are balanced.** No two addresses have the same hash, and each of the shards is
that of `2 ^ 24` addresses. -/
theorem shards_balanced :
    Function.Injective hashIp ∧
      ∀ s < ipLimiterShards, Nat.card {ip : UInt32 // getShardIndex ip = s} = 2 ^ 24 := by
  refine ⟨hash_injective, fun s hs => ?_⟩
  have hcard : Nat.card UInt32 = 2 ^ 24 * 256 :=
    (Nat.card_congr FinEnum.equiv).trans (Nat.card_eq_fintype_card.trans (Fintype.card_fin _))
  simp only [get_shard_index_eq]
  refine card_residue_of_injective hs hcard (fun ip => (hashIp ip).toNat_lt) ?_
  exact fun left right h => hash_injective (UInt32.toNat_inj.mp h)

end Emme.IpLimiter
