import Emme.Settings.RouteNumbers

/-!
# The sizes a text is read as

`parse_size_in_range` down to the result of `strtoull`. A minus sign makes `strtoull` negate the
number in the unsigned type, so that a negative number can be accepted as a size; only in this does
the function differ from reading the number (`size_read_exactly_iff`).
-/

namespace Emme.Settings

open CString Emme.Http Emme.Config Emme.Router

/-- What `strtoull` leaves: its value, the text at `endptr`, and whether it set `errno`. -/
structure Strtoull where
  value : UInt64
  endptr : Bytes
  erange : Bool
  deriving DecidableEq, Repr

/-- `strtoull` in base 10. Without digits `endptr` is the start of the text; a magnitude that does
not fit gives `ULLONG_MAX` and sets `errno`. -/
def strtoull (text : Bytes) : Strtoull :=
  match scanDecimal text with
  | none => { value := 0, endptr := text, erange := false }
  | some (value, rest) =>
      if 2 ^ 64 ≤ value.natAbs then
        { value := UInt64.ofNat (2 ^ 64 - 1), endptr := rest, erange := true }
      else
        -- a minus sign negates in the unsigned type
        { value := UInt64.ofNat (value % 2 ^ 64).toNat, endptr := rest, erange := false }

/-- `parse_size_in_range`: the answer, and `*result` afterwards. -/
def parseSizeInRangeInto (text : Bytes) (min max result : UInt64) : Int × UInt64 :=
  let converted := strtoull text
  if converted.erange = true ∨ converted.endptr = text ∨ converted.endptr ≠ [] then (-1, result)
  else if converted.value < min ∨ max < converted.value then (-1, result)
  else (0, converted.value)

variable {text : Bytes} {value : Int} {min max : UInt64}

/-- An empty text is no number. -/
theorem ne_nil_of_scan_decimal {scanned : Int × Bytes} (h : scanDecimal text = some scanned) :
    text ≠ [] := by
  rintro rfl
  cases h

/-- A number modulo `2 ^ 64` as a `size_t`. -/
theorem to_nat_of_mod (value : Int) :
    (UInt64.ofNat (value % 2 ^ 64).toNat).toNat = (value % 2 ^ 64).toNat := by
  have hlow := Int.emod_nonneg value (by decide : (2 ^ 64 : Int) ≠ 0)
  have hhigh := Int.emod_lt_of_pos value (by decide : (0 : Int) < 2 ^ 64)
  rw [UInt64.toNat_ofNat']
  omega

/-- The function that `Emme.Settings.Load` reads sizes with is this one: its number is stored with
an answer of 0, and without one `*result` keeps its value. -/
theorem parse_size_in_range_into_eq (text : Bytes) (min max result : UInt64) :
    parseSizeInRangeInto text min max result =
      ((parseSizeInRange min.toNat max.toNat text).elim (-1, result)
        fun value => (0, UInt64.ofNat value)) := by
  unfold parseSizeInRangeInto strtoull parseSizeInRange
  cases hscan : scanDecimal text with
  | none => simp
  | some scanned =>
      obtain ⟨value, rest⟩ := scanned
      have htext := ne_nil_of_scan_decimal hscan
      dsimp only
      by_cases hlarge : 2 ^ 64 ≤ value.natAbs
      · rw [if_pos hlarge, if_pos (Or.inl rfl)]
        cases rest with
        | nil =>
            dsimp only
            rw [if_pos hlarge]
            rfl
        | cons b rest => rfl
      · rw [if_neg hlarge]
        cases rest with
        | nil =>
            have hread : ¬ (false = true ∨ ([] : Bytes) = text ∨ ([] : Bytes) ≠ []) := by
              simp [htext.symm]
            dsimp only
            rw [if_neg hread, if_neg hlarge]
            simp only [UInt64.lt_iff_toNat_lt, to_nat_of_mod]
            split
            · rfl
            · rfl
        | cons b rest =>
            rw [if_pos (Or.inr (Or.inr (List.cons_ne_nil b rest)))]
            rfl

/-- The text denotes this number, and the number is within the bounds. -/
def SizeInRange (text : Bytes) (min max : UInt64) (value : Int) : Prop :=
  Denotes text value ∧ min.toNat ≤ value ∧ value ≤ max.toNat

/-- The text is read as the number it denotes if that is within the bounds, and refused without an
effect on `*result` otherwise. -/
def ReadExactly (text : Bytes) (min max result : UInt64) : Prop :=
  (∀ value, SizeInRange text min max value →
      parseSizeInRangeInto text min max result = (0, UInt64.ofNat value.toNat)) ∧
    ((¬ ∃ value, SizeInRange text min max value) →
      parseSizeInRangeInto text min max result = (-1, result))

/-- The text denotes a negative number that is within the bounds modulo `2 ^ 64`. -/
def WrapsIntoRange (text : Bytes) (min max : UInt64) : Prop :=
  ∃ d : Nat, 0 < d ∧ d < 2 ^ 64 ∧ Denotes text (-d) ∧
    min.toNat ≤ 2 ^ 64 - d ∧ 2 ^ 64 - d ≤ max.toNat

/-- A text denotes at most one number. -/
theorem denotes_unique {left right : Int} (hleft : Denotes text left)
    (hright : Denotes text right) : left = right := by
  have hsame := ((scan_decimal_denotes text left).mpr hleft).symm.trans
    ((scan_decimal_denotes text right).mpr hright)
  exact congrArg Prod.fst (Option.some.inj hsame)

/-- A text that denotes a number: it is taken modulo `2 ^ 64`, unless its magnitude is too large. -/
theorem parse_size_in_range_denotes (h : Denotes text value) (min max : Nat) :
    parseSizeInRange min max text =
      if 2 ^ 64 ≤ value.natAbs then none
      else if (value % 2 ^ 64).toNat < min ∨ max < (value % 2 ^ 64).toNat then none
      else some (value % 2 ^ 64).toNat := by
  unfold parseSizeInRange
  rw [(scan_decimal_denotes text value).mpr h]

/-- A text that denotes no number is refused. -/
theorem parse_size_in_range_undenoted (h : ∀ value, ¬ Denotes text value) (min max : Nat) :
    parseSizeInRange min max text = none := by
  unfold parseSizeInRange
  split
  · rename_i value hscan
    exact absurd ((scan_decimal_denotes text value).mp hscan) (h value)
  · rfl

/-- A number is stored modulo `2 ^ 64` when that is within the bounds. -/
theorem parse_size_in_range_stored {size : Nat} (hdenotes : Denotes text value)
    (hsmall : value.natAbs < 2 ^ 64) (hsize : (value % 2 ^ 64).toNat = size)
    (hlow : min.toNat ≤ size) (hhigh : size ≤ max.toNat) (result : UInt64) :
    parseSizeInRangeInto text min max result = (0, UInt64.ofNat size) := by
  rw [parse_size_in_range_into_eq, parse_size_in_range_denotes hdenotes, hsize,
    if_neg (Nat.not_le_of_lt hsmall), if_neg (by omega)]
  rfl

/-- A number within the bounds is stored. -/
theorem parse_size_in_range_stores (h : SizeInRange text min max value) (result : UInt64) :
    parseSizeInRangeInto text min max result = (0, UInt64.ofNat value.toNat) := by
  obtain ⟨hdenotes, hlow, hhigh⟩ := h
  have hmax := max.toNat_lt
  exact parse_size_in_range_stored hdenotes (by omega) (by omega) (by omega) (by omega) result

/-- A negative number is stored as its complement when that is within the bounds. -/
theorem parse_size_in_range_negative {d : Nat} (hpos : 0 < d) (hlt : d < 2 ^ 64)
    (hdenotes : Denotes text (-d)) (hlow : min.toNat ≤ 2 ^ 64 - d)
    (hhigh : 2 ^ 64 - d ≤ max.toNat) (result : UInt64) :
    parseSizeInRangeInto text min max result = (0, UInt64.ofNat (2 ^ 64 - d)) :=
  parse_size_in_range_stored hdenotes (by omega) (by omega) hlow hhigh result

/-- What is outside the bounds is refused, unless it is a negative number that wraps into them. -/
theorem parse_size_in_range_refused (hout : ¬ ∃ value, SizeInRange text min max value)
    (hwraps : ¬ WrapsIntoRange text min max) (result : UInt64) :
    parseSizeInRangeInto text min max result = (-1, result) := by
  rw [parse_size_in_range_into_eq]
  by_cases hdenotes : ∃ value, Denotes text value
  · obtain ⟨value, hvalue⟩ := hdenotes
    rw [parse_size_in_range_denotes hvalue]
    split
    · rfl
    · rename_i hsmall
      split
      · rfl
      · rename_i hrange
        -- the number is within the bounds as it is, or as a negative number modulo `2 ^ 64`
        rcases Int.lt_or_le value 0 with hneg | hnonneg
        · refine absurd ⟨value.natAbs, by omega, by omega, ?_, by omega, by omega⟩ hwraps
          rwa [Int.ofNat_natAbs_of_nonpos hneg.le, neg_neg]
        · exact absurd ⟨value, hvalue, by omega, by omega⟩ hout
  · rw [parse_size_in_range_undenoted fun value hvalue => hdenotes ⟨value, hvalue⟩]
    rfl

/-- A negative number that wraps into the bounds is stored although it is outside them. -/
theorem not_read_exactly_of_wraps (h : WrapsIntoRange text min max) (result : UInt64) :
    ¬ ReadExactly text min max result := by
  rintro ⟨-, hrefused⟩
  obtain ⟨d, hpos, hlt, hdenotes, hlow, hhigh⟩ := h
  have hout : ¬ ∃ value, SizeInRange text min max value := by
    rintro ⟨value, hvalue, hmin, -⟩
    have hneg := denotes_unique hvalue hdenotes
    omega
  have hsame := (hrefused hout).symm.trans
    (parse_size_in_range_negative hpos hlt hdenotes hlow hhigh result)
  have hanswer : (-1 : Int) = 0 := congrArg Prod.fst hsame
  exact absurd hanswer (by decide)

/-- **Sizes are read exactly unless a minus sign wraps.** A text is read as the size it denotes, or
refused when it denotes none within the bounds, exactly if it does not denote a negative number
that is within the bounds modulo `2 ^ 64`. -/
theorem size_read_exactly_iff (text : Bytes) (min max result : UInt64) :
    ReadExactly text min max result ↔ ¬ WrapsIntoRange text min max := by
  constructor
  · intro hexact hwraps
    exact not_read_exactly_of_wraps hwraps result hexact
  · intro hwraps
    exact ⟨fun value hvalue => parse_size_in_range_stores hvalue result,
      fun hout => parse_size_in_range_refused hout hwraps result⟩

/-- As the size of the log buffer, which has the bounds 1 and 1048576, the text
`-18446744073709551615` is accepted and read as 1. -/
theorem negative_buffer_size_accepted :
    ¬ ReadExactly (ascii "-18446744073709551615") 1 1048576 16384 := by
  have hdenotes : Denotes (ascii "-18446744073709551615") (-18446744073709551615) :=
    (scan_decimal_denotes _ _).mp (by decide)
  exact not_read_exactly_of_wraps
    ⟨18446744073709551615, by decide, by decide, hdenotes, by decide, by decide⟩ 16384

end Emme.Settings
