import Mathlib.Data.Nat.Digits.Defs
import Mathlib.Data.UInt

/-!
# Hexadecimal numbers

The conversions `%x` and `%0<width>x` of `printf`: the lower-case digits of a number without leading
zeros, filled up on the left with zeros. The width is a minimum, but a number that fits it is
written with exactly that many digits (`padded_eq_fixed`), from which it can be read back.
-/

namespace Hex

/-- The digit for a number below 16. -/
def digit (d : Nat) : UInt8 := if d < 10 then UInt8.ofNat (48 + d) else UInt8.ofNat (87 + d)

/-- The number that a digit stands for. -/
def digitValue (b : UInt8) : Nat := if b.toNat < 58 then b.toNat - 48 else b.toNat - 87

/-- `0` to `9` and `a` to `f`. -/
def isLowerHex (b : UInt8) : Bool :=
  (48 ≤ b.toNat && b.toNat ≤ 57) || (97 ≤ b.toNat && b.toNat ≤ 102)

/-- `%x`. -/
def text (n : Nat) : List UInt8 :=
  if n = 0 then [48] else (Nat.digits 16 n).reverse.map digit

/-- `%0<width>x`. -/
def padded (width n : Nat) : List UInt8 := (text n).leftpad width 48

/-- The last `width` digits of a number. -/
def fixed : Nat → Nat → List UInt8
  | 0, _ => []
  | width + 1, n => fixed width (n / 16) ++ [digit (n % 16)]

/-- The number that digits stand for. -/
def value (digits : List UInt8) : Nat :=
  digits.foldl (fun number b => 16 * number + digitValue b) 0

/-! ## Digits -/

/-- The digit of a number stands for the number. -/
theorem digit_value_digit {d : Nat} (h : d < 16) : digitValue (digit d) = d := by
  revert d
  decide

/-- The digit of a number is a lower case hexadecimal digit. -/
theorem is_lower_hex_digit {d : Nat} (h : d < 16) : isLowerHex (digit d) = true := by
  revert d
  decide

/-- A number below 16 is one digit. -/
theorem text_of_lt {n : Nat} (h : n < 16) : text n = [digit n] := by
  unfold text
  split
  · rename_i hzero
    rw [hzero]
    rfl
  · rename_i hzero
    rw [Nat.digits_of_lt 16 n hzero h]
    rfl

/-- A larger number is its quotient by 16 and then one digit. -/
theorem text_of_le {n : Nat} (h : 16 ≤ n) : text n = text (n / 16) ++ [digit (n % 16)] := by
  have hdiv : n / 16 ≠ 0 := by omega
  unfold text
  rw [if_neg (by omega), if_neg hdiv, Nat.digits_def' (by decide) (by omega), List.reverse_cons,
    List.map_append]
  rfl

/-! ## Fixed width -/

/-- As many digits as asked for. -/
@[simp] theorem length_fixed (width n : Nat) : (fixed width n).length = width := by
  induction width generalizing n with
  | zero => rfl
  | succ width ih => rw [fixed, List.length_append, ih, List.length_singleton]

/-- The digits of 0. -/
theorem fixed_zero (width : Nat) : fixed width 0 = List.replicate width 48 := by
  induction width with
  | zero => rfl
  | succ width ih => rw [fixed, Nat.zero_div, ih, List.replicate_succ']; rfl

/-- All of them are lower case hexadecimal digits. -/
theorem is_lower_hex_fixed {width n : Nat} {b : UInt8} (h : b ∈ fixed width n) :
    isLowerHex b = true := by
  induction width generalizing n with
  | zero => cases h
  | succ width ih =>
      rcases List.mem_append.mp h with hfirst | hlast
      · exact ih hfirst
      · rw [List.mem_singleton.mp hlast]
        exact is_lower_hex_digit (Nat.mod_lt n (by decide))

/-- Enough digits stand for the number. -/
theorem value_fixed {width n : Nat} (h : n < 16 ^ width) : value (fixed width n) = n := by
  induction width generalizing n with
  | zero => exact (Nat.lt_one_iff.mp h).symm
  | succ width ih =>
      have hdiv : n / 16 < 16 ^ width := Nat.div_lt_of_lt_mul (by rwa [Nat.pow_succ'] at h)
      have hfirst := ih hdiv
      unfold value at hfirst ⊢
      rw [fixed, List.foldl_concat, hfirst, digit_value_digit (Nat.mod_lt n (by decide)),
        Nat.div_add_mod]

/-- One more element at the end is one less to pad with. -/
theorem leftpad_concat {α : Type*} (width : Nat) (a b : α) (l : List α) :
    (l ++ [b]).leftpad (width + 1) a = l.leftpad width a ++ [b] := by
  unfold List.leftpad
  rw [List.length_append, List.length_singleton, Nat.add_sub_add_right, List.append_assoc]

/-- A number that fits the width is written with exactly that many digits. -/
theorem padded_eq_fixed {width n : Nat} (hwidth : 0 < width) (h : n < 16 ^ width) :
    padded width n = fixed width n := by
  induction width generalizing n with
  | zero => cases hwidth
  | succ width ih =>
      unfold padded
      by_cases hlarge : 16 ≤ n
      · have hdiv : n / 16 < 16 ^ width := Nat.div_lt_of_lt_mul (by rwa [Nat.pow_succ'] at h)
        have hpos : 0 < width := by
          rcases Nat.eq_zero_or_pos width with rfl | hpos
          · omega
          · exact hpos
        rw [text_of_le hlarge, leftpad_concat, fixed]
        exact congrArg (· ++ _) (ih hpos hdiv)
      · have hsmall : n < 16 := Nat.lt_of_not_le hlarge
        rw [text_of_lt hsmall, fixed, Nat.div_eq_of_lt hsmall, fixed_zero, Nat.mod_eq_of_lt hsmall]
        rfl

end Hex
