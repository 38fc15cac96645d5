import Mathlib.Data.Fintype.Card
import Mathlib.Data.UInt
import Mathlib.Logic.Equiv.Fin.Basic
import Mathlib.SetTheory.Cardinal.Finite

/-!
# Mixing functions

The two steps that multiplicative hashes of words alternate: a product with an odd constant, which
the product with the constant's inverse undoes, and `x ^ (x >> k)`, which undoes itself if `k` is
at least half the width. A function that is injective on words of one width meets every residue
equally often (`card_residue_of_injective`).
-/

namespace Mixing

/-- `x ^ (x >> k)`. -/
def xorShift {w : Nat} (k : Nat) (x : BitVec w) : BitVec w := x ^^^ (x >>> k)

/-- An xor with a shift by at least half the width undoes itself. -/
theorem xor_shift_involutive {w k : Nat} (h : w ≤ k + k) :
    Function.Involutive (xorShift k : BitVec w → BitVec w) := by
  intro x
  have hgone : x >>> k >>> k = 0#w := by
    rw [← BitVec.shiftRight_add, BitVec.ushiftRight_eq_zero h]
  unfold xorShift
  rw [BitVec.ushiftRight_xor_distrib, hgone, BitVec.xor_zero, BitVec.xor_assoc, BitVec.xor_self,
    BitVec.xor_zero]

/-- Multiplying by what has an inverse loses nothing. -/
theorem mul_left_injective_of_inverse {α : Type*} [Monoid α] {a b : α} (h : a * b = 1) :
    Function.Injective (· * a) := by
  have hundo : Function.LeftInverse (· * b) (· * a) := by
    intro x
    show x * a * b = x
    rw [mul_assoc, h, mul_one]
  exact hundo.injective

/-! ## Residues -/

/-- Of the numbers below `m * n`, as many as `m` leave a given rest when divided by `n`. -/
theorem card_residue {m n s : Nat} (h : s < n) :
    Nat.card {x : Fin (m * n) // x.val % n = s} = m := by
  have hlt (i : Fin m) : n * i.val + s < m * n := by
    calc n * i.val + s < n * i.val + n := Nat.add_lt_add_left h _
      _ = n * (i.val + 1) := (Nat.mul_succ n i.val).symm
      _ ≤ n * m := Nat.mul_le_mul_left n i.isLt
      _ = m * n := Nat.mul_comm n m
  have hmod (i : Fin m) : (n * i.val + s) % n = s := by
    rw [Nat.mul_add_mod, Nat.mod_eq_of_lt h]
  let place (i : Fin m) : {x : Fin (m * n) // x.val % n = s} := ⟨⟨n * i.val + s, hlt i⟩, hmod i⟩
  have hbijective : Function.Bijective place := by
    constructor
    · intro i j heq
      have hval : n * i.val + s = n * j.val + s := congrArg (fun x => x.1.val) heq
      exact Fin.ext (Nat.eq_of_mul_eq_mul_left (Nat.zero_lt_of_lt h) (Nat.add_right_cancel hval))
    · rintro ⟨x, hx⟩
      refine ⟨⟨x.val / n, Nat.div_lt_of_lt_mul (Nat.mul_comm m n ▸ x.isLt)⟩, ?_⟩
      apply Subtype.ext
      apply Fin.ext
      show n * (x.val / n) + s = x.val
      rw [← hx, Nat.div_add_mod]
  rw [← Nat.card_eq_of_bijective place hbijective, Nat.card_eq_fintype_card, Fintype.card_fin]

/-- An injective function from as many values as there are numbers below `m * n` into these numbers
meets every residue `m` times. -/
theorem card_residue_of_injective {α : Type*} [Finite α] {m n s : Nat} (h : s < n) {f : α → Nat}
    (hcard : Nat.card α = m * n) (hlt : ∀ a, f a < m * n) (hf : Function.Injective f) :
    Nat.card {a : α // f a % n = s} = m := by
  let word (a : α) : Fin (m * n) := ⟨f a, hlt a⟩
  have hinjective : Function.Injective word := fun a b heq => hf (congrArg Fin.val heq)
  have hbijective : Function.Bijective word := by
    refine (Nat.bijective_iff_injective_and_card word).mpr ⟨hinjective, ?_⟩
    rw [hcard, Nat.card_eq_fintype_card, Fintype.card_fin]
  refine Eq.trans ?_ (card_residue h)
  exact Nat.card_congr ((Equiv.ofBijective word hbijective).subtypeEquiv fun a => Iff.rfl)

end Mixing
