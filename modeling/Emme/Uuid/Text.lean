import Emme.Lib.CString
import Emme.Lib.Hex
import Emme.Uuid.Random

/-!
# The text of an identifier

`generate_uuid` draws four words, overwrites the bits of the version and of the variant, and prints
the words in six fields. Each field is as wide as the value in it can be, so the text has its shape
for all words, and the remaining bits can be read back from it.
-/

namespace Emme.Uuid

open CString Execution Hex

/-- `UUID_STRING_LEN`, which is also the size of `request_id`. -/
def uuidStringLen : Nat := 37

/-- The text between two groups. -/
def dash : Bytes := ascii "-"

/-- `r2` with the version in it. -/
def withVersion (r2 : UInt32) : UInt32 := (r2 &&& 0xffff0fff) ||| 0x00004000

/-- `r3` with the variant in it. -/
def withVariant (r3 : UInt32) : UInt32 := (r3 &&& 0x0fff) ||| 0x8000

/-- What `sprintf` prints for the format `%08x-%04x-%04x-%04x-%04x%08x` and these words. -/
def uuidText (r1 r2 r3 r4 : UInt32) : Bytes :=
  let r2 := withVersion r2
  let r3 := withVariant r3
  padded 8 r1.toNat ++ dash ++ padded 4 (r2 >>> 16).toNat ++ dash ++
    padded 4 (r2 &&& 0xffff).toNat ++ dash ++ padded 4 r3.toNat ++ dash ++
    (padded 4 (r4 >>> 16).toNat ++ padded 8 (r4 &&& 0xffff).toNat)

/-- `generate_uuid`: the bytes it writes, with the terminator. The time and the process of `seed`
are read by the first call of `get_random_uint`, if at all. -/
def generateUuid (seed : Seed) (state : RandomState) : Option (Bytes × RandomState) := do
  let (r1, state) ← getRandomUint seed state
  let (r2, state) ← getRandomUint seed state
  let (r3, state) ← getRandomUint seed state
  let (r4, state) ← getRandomUint seed state
  return (uuidText r1 r2 r3 r4 ++ [0], state)

/-! ## What the text is for -/

/-- Five groups of 8, 4, 4, 4 and 12 lower-case hexadecimal digits with dashes between them, the
third of version 4 and the fourth of the variant whose first digit is 8, 9, a or b. -/
def Canonical (text : Bytes) : Prop :=
  ∃ g1 g2 g3 g4 g5 : Bytes,
    text = g1 ++ dash ++ g2 ++ dash ++ g3 ++ dash ++ g4 ++ dash ++ g5 ∧
      g1.length = 8 ∧ g2.length = 4 ∧ g3.length = 4 ∧ g4.length = 4 ∧ g5.length = 12 ∧
      (∀ b ∈ g1 ++ g2 ++ g3 ++ g4 ++ g5, isLowerHex b = true) ∧
      g3.head? = some 52 ∧ (∃ b ∈ ascii "89ab", g4.head? = some b)

/-- The words of a text, without the bits that are always the same. -/
def uuidWords (text : Bytes) : UInt32 × UInt32 × UInt32 × UInt32 :=
  let field (start width : Nat) : Nat := value ((text.drop start).take width)
  (UInt32.ofNat (field 0 8),
    UInt32.ofNat (field 9 4 * 65536 + field 14 4) &&& 0xffff0fff,
    UInt32.ofNat (field 19 4) &&& 0x0fff,
    UInt32.ofNat (field 24 4 * 65536 + field 28 8))

/-! ## The words -/

/-- The high half as it is printed. -/
theorem high_half (r : UInt32) : (r >>> 16).toNat = r.toNat / 65536 := by
  rw [UInt32.toNat_shiftRight, Nat.shiftRight_eq_div_pow]
  rfl

/-- The low half as it is printed. -/
theorem low_half (r : UInt32) : (r &&& 0xffff).toNat = r.toNat % 65536 := by
  rw [UInt32.toNat_and]
  exact Nat.and_two_pow_sub_one_eq_mod r.toNat 16

/-- It fits four digits. -/
theorem high_half_lt (r : UInt32) : (r >>> 16).toNat < 16 ^ 4 := by
  have hlt := r.toNat_lt
  rw [high_half]
  omega

/-- It fits four digits. -/
theorem low_half_lt (r : UInt32) : (r &&& 0xffff).toNat < 16 ^ 4 := by
  rw [low_half]
  exact Nat.mod_lt r.toNat (by decide)

/-- The low half of the last word is printed with twice the digits that it needs. -/
theorem low_half_lt_wide (r : UInt32) : (r &&& 0xffff).toNat < 16 ^ 8 :=
  (low_half_lt r).trans (by decide)

/-- A word is put together from its halves. -/
theorem of_halves (r : UInt32) :
    UInt32.ofNat ((r >>> 16).toNat * 65536 + (r &&& 0xffff).toNat) = r := by
  rw [high_half, low_half, Nat.div_add_mod', UInt32.ofNat_toNat]

/-- Bits outside a mask that are set in a masked word do not change what the mask keeps. -/
theorem masked_or {r mask bits : UInt32} (h : bits &&& mask = 0) :
    ((r &&& mask) ||| bits) &&& mask = r &&& mask := by
  have hbits : bits.toNat &&& mask.toNat = 0 := congrArg UInt32.toNat h
  apply UInt32.toNat_inj.mp
  simp only [UInt32.toNat_and, UInt32.toNat_or]
  rw [Nat.and_or_distrib_right, hbits, Nat.or_zero, Nat.and_assoc, Nat.and_self]

/-- The version overwrites nothing else. -/
theorem with_version_masked (r2 : UInt32) :
    withVersion r2 &&& 0xffff0fff = r2 &&& 0xffff0fff :=
  masked_or (by decide)

/-- The variant overwrites nothing else. -/
theorem with_variant_masked (r3 : UInt32) : withVariant r3 &&& 0x0fff = r3 &&& 0x0fff :=
  masked_or (by decide)

/-- The first digit of the third group. -/
theorem version_digit (r2 : UInt32) : (withVersion r2 &&& 0xffff).toNat / 2 ^ 12 = 4 := by
  unfold withVersion
  rw [← Nat.shiftRight_eq_div_pow, UInt32.toNat_and, UInt32.toNat_or, UInt32.toNat_and,
    Nat.shiftRight_and_distrib, Nat.shiftRight_or_distrib, Nat.shiftRight_and_distrib,
    Nat.and_or_distrib_right, Nat.and_assoc]
  show (_ &&& 0) ||| 4 = 4
  rw [Nat.and_zero]
  rfl

/-- The first digit of the fourth group. -/
theorem variant_digit (r3 : UInt32) : (withVariant r3).toNat / 2 ^ 12 = 8 := by
  unfold withVariant
  rw [← Nat.shiftRight_eq_div_pow, UInt32.toNat_or, UInt32.toNat_and,
    Nat.shiftRight_or_distrib, Nat.shiftRight_and_distrib]
  show (_ &&& 0) ||| 8 = 8
  rw [Nat.and_zero]
  rfl

/-- The third word fits four digits. -/
theorem with_variant_lt (r3 : UInt32) : (withVariant r3).toNat < 16 ^ 4 := by
  have hdigit := variant_digit r3
  omega

/-! ## The fields -/

/-- Every field has its width. -/
theorem uuid_text_eq (r1 r2 r3 r4 : UInt32) :
    uuidText r1 r2 r3 r4 =
      fixed 8 r1.toNat ++ dash ++ fixed 4 (withVersion r2 >>> 16).toNat ++ dash ++
        fixed 4 (withVersion r2 &&& 0xffff).toNat ++ dash ++ fixed 4 (withVariant r3).toNat ++
        dash ++ (fixed 4 (r4 >>> 16).toNat ++ fixed 8 (r4 &&& 0xffff).toNat) := by
  unfold uuidText
  dsimp only
  rw [padded_eq_fixed (by decide) r1.toNat_lt, padded_eq_fixed (by decide) (high_half_lt _),
    padded_eq_fixed (by decide) (low_half_lt _), padded_eq_fixed (by decide) (with_variant_lt r3),
    padded_eq_fixed (by decide) (high_half_lt r4), padded_eq_fixed (by decide)
      (low_half_lt_wide r4)]

/-- The first of four digits. -/
theorem head_fixed_four (n : Nat) : (fixed 4 n).head? = some (digit (n / 2 ^ 12 % 16)) := by
  show some (digit (n / 16 / 16 / 16 % 16)) = _
  rw [Nat.div_div_eq_div_mul, Nat.div_div_eq_div_mul]
  rfl

/-- The fields are found at their places. -/
theorem fields_of_groups {g1 g2 g3 g4 g5 g6 : Bytes} (h1 : g1.length = 8) (h2 : g2.length = 4)
    (h3 : g3.length = 4) (h4 : g4.length = 4) (h5 : g5.length = 4) (h6 : g6.length = 8) :
    uuidWords (g1 ++ dash ++ g2 ++ dash ++ g3 ++ dash ++ g4 ++ dash ++ (g5 ++ g6)) =
      (UInt32.ofNat (value g1), UInt32.ofNat (value g2 * 65536 + value g3) &&& 0xffff0fff,
        UInt32.ofNat (value g4) &&& 0x0fff, UInt32.ofNat (value g5 * 65536 + value g6)) := by
  have hdash : dash.length = 1 := rfl
  unfold uuidWords
  simp [List.drop_append, h1, h2, h3, h4, h5, h6, hdash, List.drop_of_length_le,
    List.take_of_length_le]

/-- The text has its shape for all words. -/
theorem uuid_text_canonical (r1 r2 r3 r4 : UInt32) : Canonical (uuidText r1 r2 r3 r4) := by
  refine ⟨_, _, _, _, _, uuid_text_eq r1 r2 r3 r4, length_fixed _ _, length_fixed _ _,
    length_fixed _ _, length_fixed _ _, ?_, ?_, ?_, ?_⟩
  · rw [List.length_append, length_fixed, length_fixed]
  · intro b hb
    simp only [List.mem_append] at hb
    rcases hb with (((hb | hb) | hb) | hb) | hb | hb <;> exact is_lower_hex_fixed hb
  · rw [head_fixed_four, version_digit]
    rfl
  · rw [head_fixed_four, variant_digit]
    exact ⟨56, by decide, rfl⟩

/-- A canonical text has 36 characters. -/
theorem Canonical.length {text : Bytes} (h : Canonical text) : text.length = 36 := by
  obtain ⟨g1, g2, g3, g4, g5, rfl, h1, h2, h3, h4, h5, -⟩ := h
  simp [h1, h2, h3, h4, h5, show dash.length = 1 from rfl]

/-- The words are read back from the text. -/
theorem uuid_words_text (r1 r2 r3 r4 : UInt32) :
    uuidWords (uuidText r1 r2 r3 r4) = (r1, r2 &&& 0xffff0fff, r3 &&& 0x0fff, r4) := by
  rw [uuid_text_eq, fields_of_groups (length_fixed _ _) (length_fixed _ _) (length_fixed _ _)
    (length_fixed _ _) (length_fixed _ _) (length_fixed _ _), value_fixed r1.toNat_lt,
    value_fixed (high_half_lt _), value_fixed (low_half_lt _), value_fixed (with_variant_lt r3),
    value_fixed (high_half_lt r4), value_fixed (low_half_lt_wide r4), of_halves, of_halves,
    UInt32.ofNat_toNat, UInt32.ofNat_toNat, with_version_masked, with_variant_masked]

/-- `generate_uuid` writes the text of the four words it draws, in every state it can be called
in. -/
theorem generate_uuid_eq {state : RandomState} (h : StartedOrInitialized state) (seed : Seed) :
    ∃ r1 r2 r3 r4 following,
      randomUints state [seed, seed, seed, seed] = some ([r1, r2, r3, r4], following) ∧
        generateUuid seed state = some (uuidText r1 r2 r3 r4 ++ [0], following) := by
  obtain ⟨r1, first, hr1, hfirst⟩ := h.get_random_uint seed
  obtain ⟨r2, second, hr2, hsecond⟩ := hfirst.get_random_uint seed
  obtain ⟨r3, third, hr3, hthird⟩ := hsecond.get_random_uint seed
  obtain ⟨r4, fourth, hr4, -⟩ := hthird.get_random_uint seed
  refine ⟨r1, r2, r3, r4, fourth, ?_, ?_⟩
  · exact random_uints_cons hr1 (random_uints_cons hr2
      (random_uints_cons hr3 (random_uints_cons hr4 rfl)))
  · unfold generateUuid
    simp only [hr1, hr2, hr3, hr4, Option.bind_eq_bind, Option.bind_some, Option.pure_def]

/-- Two texts are the same exactly if the words differ in no other bits than those that are
overwritten. -/
theorem uuid_text_eq_iff {r1 r2 r3 r4 s1 s2 s3 s4 : UInt32} :
    uuidText r1 r2 r3 r4 = uuidText s1 s2 s3 s4 ↔
      r1 = s1 ∧ r2 &&& 0xffff0fff = s2 &&& 0xffff0fff ∧ r3 &&& 0x0fff = s3 &&& 0x0fff ∧
        r4 = s4 := by
  constructor
  · intro h
    have hwords := congrArg uuidWords h
    rw [uuid_words_text, uuid_words_text] at hwords
    simpa only [Prod.mk.injEq] using hwords
  · rintro ⟨rfl, h2, h3, rfl⟩
    unfold uuidText withVersion withVariant
    rw [h2, h3]

/-- **The text of an identifier.** In every state that calls of `get_random_uint` lead to,
`generate_uuid` draws four words and writes 36 characters and the terminator, which fill
`request_id`. For all words the characters have the canonical shape, and the first word, the second
without its version, the low bits of the third and the fourth can be read back from them. -/
theorem uuid_text_recoverable {seeds : List Seed} {state : RandomState}
    (hrun : run randomStep programStart seeds = some state) (seed : Seed) :
    (∃ r1 r2 r3 r4 following,
      randomUints state [seed, seed, seed, seed] = some ([r1, r2, r3, r4], following) ∧
        generateUuid seed state = some (uuidText r1 r2 r3 r4 ++ [0], following)) ∧
    ∀ r1 r2 r3 r4,
      (uuidText r1 r2 r3 r4).length = 36 ∧ (uuidText r1 r2 r3 r4 ++ [0]).length = uuidStringLen ∧
        Canonical (uuidText r1 r2 r3 r4) ∧
        uuidWords (uuidText r1 r2 r3 r4) = (r1, r2 &&& 0xffff0fff, r3 &&& 0x0fff, r4) ∧
        ∀ s1 s2 s3 s4, uuidText r1 r2 r3 r4 = uuidText s1 s2 s3 s4 ↔
          r1 = s1 ∧ r2 &&& 0xffff0fff = s2 &&& 0xffff0fff ∧ r3 &&& 0x0fff = s3 &&& 0x0fff ∧
            r4 = s4 := by
  have hstate : StartedOrInitialized state :=
    run_preserves (fun _ _ _ h hstep => StartedOrInitialized.of_step h hstep) (Or.inl rfl) hrun
  refine ⟨generate_uuid_eq hstate seed, fun r1 r2 r3 r4 => ?_⟩
  have hlength := (uuid_text_canonical r1 r2 r3 r4).length
  refine ⟨hlength, ?_, uuid_text_canonical r1 r2 r3 r4, uuid_words_text r1 r2 r3 r4,
    fun s1 s2 s3 s4 => uuid_text_eq_iff⟩
  rw [List.length_append, hlength]
  rfl

/-- The first identifier of a program that starts at the time 0: its words are those of MT19937 for
the seed 1, and its text is canonical. -/
theorem first_uuid_canonical :
    ∃ text following, generateUuid ⟨0, 0, 1⟩ programStart = some (text ++ [0], following) ∧
      (text ++ [0]).length = uuidStringLen ∧ Canonical text ∧
      ∃ r1 r2 r3 r4, [r1, r2, r3, r4] =
          (List.range 4).map (fun k => mtTempering (mtSeededSequence 1 (k + 624))) ∧
        uuidWords text = (r1, r2 &&& 0xffff0fff, r3 &&& 0x0fff, r4) := by
  obtain ⟨⟨r1, r2, r3, r4, following, hdrawn, huuid⟩, hwords⟩ :=
    @uuid_text_recoverable [] programStart rfl ⟨0, 0, 1⟩
  obtain ⟨-, hfull, hcanonical, hread, -⟩ := hwords r1 r2 r3 r4
  obtain ⟨following', hmt⟩ := random_uints_start ⟨0, 0, 1⟩ [⟨0, 0, 1⟩, ⟨0, 0, 1⟩, ⟨0, 0, 1⟩]
  have heq := congrArg Prod.fst (Option.some.inj (hdrawn.symm.trans hmt))
  exact ⟨_, following, huuid, hfull, hcanonical, r1, r2, r3, r4, heq, hread⟩

end Emme.Uuid
