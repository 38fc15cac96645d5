import Mathlib.Data.List.Infix
import Mathlib.Tactic.Common

/-!
# Bytes and C strings

A C string is the list of its bytes before the terminator. `cstr buffer pos` is the C string
that starts at offset `pos` of a buffer that is followed by a NUL byte; the search functions of
`<string.h>` are stated on such offsets. `CutFrom` relates a buffer to what is left of it after
NUL bytes were written into it.
-/

namespace CString

/-- A block of memory, or a C string without its terminator. -/
abbrev Bytes := List UInt8

/-- The bytes of an ASCII text. -/
def ascii (text : String) : Bytes :=
  text.toList.map fun c => c.toNat.toUInt8

/-- A check of a literal can be made on its characters, which saves decoding it. -/
theorem ascii_check {check : Bytes → Bool} {text : String} {chars : List Char}
    (h : text = String.ofList chars)
    (hcheck : check (chars.map fun c => c.toNat.toUInt8) = true) : check (ascii text) = true := by
  rw [h, ascii, String.toList_ofList]
  exact hcheck

/-- `strncmp(left, right, n) == 0` for C strings. -/
def strncmpEq (left right : Bytes) (n : Nat) : Bool :=
  left.take n = right.take n

/-- The byte at an index of a C string; `none` is the terminator. -/
def charAt (text : Bytes) (i : Nat) : Option UInt8 := text[i]?

/-- `strrchr`: the part of the string from the last occurrence of a byte on. -/
def strrchr : Bytes → UInt8 → Option Bytes
  | [], _ => none
  | b :: rest, c => (strrchr rest c).or (if b = c then some (b :: rest) else none)

/-- The first `n` bytes of a string of that length are a prefix of every string they match. -/
theorem prefix_of_strncmp_eq {left right : Bytes}
    (h : strncmpEq left right right.length = true) : right <+: left := by
  have htake : left.take right.length = right := by simpa [strncmpEq] using h
  exact List.prefix_iff_eq_take.mpr htake.symm

/-- `strncmp` over the length of a text that the other starts with. -/
theorem strncmp_eq_of_starts {left right : Bytes} (h : right <+: left) :
    strncmpEq left right right.length = true := by
  simp [strncmpEq, ← List.prefix_iff_eq_take.mp h]

/-- Over the length of a text `strncmp` tells whether the other starts with it. -/
theorem strncmp_eq_decide (left right : Bytes) :
    strncmpEq left right right.length = decide (right <+: left) :=
  Bool.eq_iff_iff.mpr ⟨fun h => decide_eq_true (prefix_of_strncmp_eq h),
    fun h => strncmp_eq_of_starts (of_decide_eq_true h)⟩

/-! ## Offsets into a buffer -/

/-- The byte at an index of a buffer that is followed by a NUL byte. -/
def byteAt (buffer : Bytes) (i : Nat) : UInt8 := buffer.getD i 0

/-- The C string that starts at an offset of a buffer. -/
def cstr (buffer : Bytes) (pos : Nat) : Bytes := (buffer.drop pos).takeWhile (· ≠ 0)

/-- The first index at which one list of bytes occurs in another. -/
def findSub (needle : Bytes) : Bytes → Option Nat
  | [] => if needle = [] then some 0 else none
  | b :: rest =>
      if needle <+: b :: rest then some 0 else (findSub needle rest).map (· + 1)

/-- `strchr(buffer + pos, c)` for a byte other than NUL, as an offset into the buffer. -/
def strchr (buffer : Bytes) (pos : Nat) (c : UInt8) : Option Nat :=
  ((cstr buffer pos).idxOf? c).map (pos + ·)

/-- `strstr(buffer + pos, needle)`, as an offset into the buffer. -/
def strstr (buffer : Bytes) (pos : Nat) (needle : Bytes) : Option Nat :=
  (findSub needle (cstr buffer pos)).map (pos + ·)

/-- The carriage return and line feed that end a line. -/
def crlf : Bytes := [13, 10]

variable {text needle buffer line : Bytes} {i : Nat}

/-- The bytes stand where they have been found. -/
theorem find_sub_eq_some (h : findSub needle text = some i) : needle <+: text.drop i := by
  induction text generalizing i with
  | nil =>
      rw [findSub] at h
      split at h
      · rename_i hnil
        exact hnil ▸ List.nil_prefix
      · cases h
  | cons b rest ih =>
      rw [findSub] at h
      split at h
      · rename_i hpre
        cases h
        exact hpre
      · obtain ⟨j, hj, rfl⟩ := Option.map_eq_some_iff.mp h
        exact ih hj

/-- The first occurrence stays the first when bytes are added at the end. -/
theorem find_sub_append (h : findSub needle text = some i) (more : Bytes) :
    findSub needle (text ++ more) = some i := by
  induction text generalizing i with
  | nil =>
      rw [findSub] at h
      split at h
      · rename_i hnil
        cases h
        subst hnil
        cases more with
        | nil => rfl
        | cons b more => exact if_pos List.nil_prefix
      · cases h
  | cons b rest ih =>
      rw [findSub] at h
      split at h
      · rename_i hpre
        cases h
        exact if_pos (hpre.trans (List.prefix_append (b :: rest) more))
      · rename_i hpre
        obtain ⟨j, hj, rfl⟩ := Option.map_eq_some_iff.mp h
        have hlen := (find_sub_eq_some hj).length_le
        rw [List.length_drop] at hlen
        have hshort : needle.length ≤ (b :: rest).length := by
          rw [List.length_cons]
          omega
        have hnot : ¬ needle <+: b :: (rest ++ more) := by
          intro hlong
          exact hpre (List.prefix_of_prefix_length_le hlong
            (List.prefix_append (b :: rest) more) hshort)
        rw [List.cons_append, findSub, if_neg hnot, ih hj]
        rfl

/-- Only bytes of the buffer differ from the terminator. -/
theorem lt_length_of_byte_at_ne (h : byteAt buffer i ≠ 0) : i < buffer.length := by
  by_contra hge
  exact h (by rw [byteAt, List.getD_eq_getElem?_getD,
    List.getElem?_eq_none (Nat.le_of_not_lt hge), Option.getD_none])

/-- A C string is empty at a NUL byte and goes on behind every other. -/
theorem cstr_eq (buffer : Bytes) (pos : Nat) :
    cstr buffer pos =
      if byteAt buffer pos = 0 then [] else byteAt buffer pos :: cstr buffer (pos + 1) := by
  by_cases hlt : pos < buffer.length
  · have hbyte : byteAt buffer pos = buffer[pos] := by
      rw [byteAt, List.getD_eq_getElem?_getD, List.getElem?_eq_getElem hlt]
      rfl
    rw [cstr, cstr, List.drop_eq_getElem_cons hlt, List.takeWhile_cons, hbyte]
    by_cases hnul : buffer[pos] = 0 <;> simp [hnul]
  · have hbyte : byteAt buffer pos = 0 := by
      by_contra hne
      exact hlt (lt_length_of_byte_at_ne hne)
    rw [cstr, List.drop_eq_nil_of_le (Nat.le_of_not_lt hlt), if_pos hbyte]
    rfl

/-- The three cases of a round of `strchr`. -/
theorem strchr_at (buffer : Bytes) (pos : Nat) (c : UInt8) :
    (byteAt buffer pos = c ∧ strchr buffer pos c = some pos) ∨
      (byteAt buffer pos = 0 ∧ strchr buffer pos c = none) ∨
      (byteAt buffer pos ≠ c ∧ byteAt buffer pos ≠ 0 ∧
        strchr buffer pos c = strchr buffer (pos + 1) c) := by
  unfold strchr
  rw [cstr_eq]
  by_cases hnul : byteAt buffer pos = 0
  · exact .inr (.inl ⟨hnul, by rw [if_pos hnul]; rfl⟩)
  · rw [if_neg hnul, List.idxOf?_cons]
    by_cases hbyte : byteAt buffer pos = c
    · exact .inl ⟨hbyte, by simp [hbyte]⟩
    · refine .inr (.inr ⟨hbyte, hnul, ?_⟩)
      rw [if_neg (by simpa using hbyte), Option.map_map]
      congr 1
      funext i
      show pos + (i + 1) = pos + 1 + i
      omega

/-- The three cases of a round of `strstr`. -/
theorem strstr_at (buffer : Bytes) (pos : Nat) (hneedle : needle ≠ []) :
    (needle <+: cstr buffer pos ∧ strstr buffer pos needle = some pos) ∨
      (¬ needle <+: cstr buffer pos ∧ byteAt buffer pos = 0 ∧ strstr buffer pos needle = none) ∨
      (¬ needle <+: cstr buffer pos ∧ byteAt buffer pos ≠ 0 ∧
        strstr buffer pos needle = strstr buffer (pos + 1) needle) := by
  unfold strstr
  rw [cstr_eq]
  by_cases hnul : byteAt buffer pos = 0
  · rw [if_pos hnul, findSub, if_neg hneedle]
    exact .inr (.inl ⟨fun hpre => hneedle (List.prefix_nil.mp hpre), hnul, rfl⟩)
  · rw [if_neg hnul, findSub]
    split
    · rename_i hpre
      exact .inl ⟨hpre, rfl⟩
    · rename_i hpre
      refine .inr (.inr ⟨hpre, hnul, ?_⟩)
      rw [Option.map_map]
      congr 1
      funext i
      show pos + (i + 1) = pos + 1 + i
      omega

/-- What `strchr` finds: the byte, with no NUL byte and no other occurrence on the way. -/
theorem strchr_eq_some {pos : Nat} {c : UInt8} (h : strchr buffer pos c = some i) :
    pos ≤ i ∧ buffer[i]? = some c ∧ c ≠ 0 ∧
      ∀ j, pos ≤ j → j < i → buffer[j]? ≠ some c ∧ buffer[j]? ≠ some 0 := by
  obtain ⟨k, hk, rfl⟩ := Option.map_eq_some_iff.mp h
  obtain ⟨hlt, hget, hfirst⟩ := List.idxOf?_eq_some_iff.mp hk
  have hcstr : cstr buffer pos <+: buffer.drop pos := List.takeWhile_prefix _
  -- the bytes of the C string are those of the buffer, and none of them is NUL
  have hbyte {j : Nat} (hj : j < (cstr buffer pos).length) :
      buffer[pos + j]? = some (cstr buffer pos)[j] := by
    rw [← List.getElem?_drop]
    exact List.prefix_iff_getElem?.mp hcstr j hj
  have hnul {b : UInt8} (hb : b ∈ cstr buffer pos) : b ≠ 0 :=
    of_decide_eq_true (List.all_eq_true.mp List.all_takeWhile b hb)
  refine ⟨Nat.le_add_right pos k, hget ▸ hbyte hlt, hget ▸ hnul (List.getElem_mem hlt), ?_⟩
  intro j hle hj
  obtain ⟨l, rfl⟩ := Nat.exists_eq_add_of_le hle
  have hl : l < k := by omega
  rw [hbyte (Nat.lt_trans hl hlt)]
  exact ⟨fun hc => hfirst l hl (Option.some.inj hc),
    fun hzero => hnul (List.getElem_mem _) (Option.some.inj hzero)⟩

/-- An occurrence that `strstr` finds is one in the buffer, not behind the offset. -/
theorem strstr_eq_some {pos : Nat} (h : strstr buffer pos needle = some i) :
    pos ≤ i ∧ needle <+: buffer.drop i := by
  obtain ⟨j, hj, rfl⟩ := Option.map_eq_some_iff.mp h
  refine ⟨Nat.le_add_right pos j, ?_⟩
  have hcstr : cstr buffer pos <+: buffer.drop pos := List.takeWhile_prefix _
  rw [← List.drop_drop]
  exact (find_sub_eq_some hj).trans (hcstr.drop j)

/-! ## Texts at a place of a buffer -/

/-- The C string at a place is the text that stands there before a NUL byte. -/
theorem cstr_place (h : 0 ∉ text) (front back : Bytes) :
    cstr (front ++ text ++ 0 :: back) front.length = text := by
  have hall : ∀ b ∈ text, decide (b ≠ 0) = true :=
    fun b hb => decide_eq_true fun hzero => h (hzero ▸ hb)
  rw [cstr, List.append_assoc, List.drop_left, List.takeWhile_append_of_pos hall]
  simp

/-- Overwriting the byte behind a text. -/
theorem set_place (front : Bytes) (b c : UInt8) (back : Bytes) :
    (front ++ b :: back).set front.length c = front ++ c :: back := by
  rw [List.set_append_right _ _ (Nat.le_refl _), Nat.sub_self, List.set_cons_zero]

/-- What `strchr` finds in the text at a place: its first occurrence there. -/
theorem strchr_place (h : 0 ∉ text) (front back : Bytes) (c : UInt8) (i : Nat) :
    strchr (front ++ text ++ 0 :: back) front.length c = some i ↔
      ∃ before after, text = before ++ c :: after ∧ c ∉ before ∧
        i = front.length + before.length := by
  rw [strchr, cstr_place h, Option.map_eq_some_iff]
  constructor
  · rintro ⟨j, hj, rfl⟩
    obtain ⟨hlt, hget, hfirst⟩ := List.idxOf?_eq_some_iff.mp hj
    refine ⟨text.take j, text.drop (j + 1), ?_, ?_, ?_⟩
    · rw [← hget, ← List.drop_eq_getElem_cons hlt, List.take_append_drop]
    · intro hmem
      obtain ⟨k, hk, hc⟩ := List.getElem_of_mem hmem
      rw [List.length_take] at hk
      rw [List.getElem_take] at hc
      exact hfirst k (by omega) hc
    · rw [List.length_take, Nat.min_eq_left (Nat.le_of_lt hlt)]
  · rintro ⟨before, after, rfl, hnot, rfl⟩
    refine ⟨before.length, ?_, rfl⟩
    rw [List.idxOf?_eq_some_iff]
    refine ⟨by simp, by simp, fun j hj => ?_⟩
    rw [List.getElem_append_left hj]
    exact fun hc => hnot (hc ▸ List.getElem_mem hj)

/-- `strchr` finds nothing exactly if the text at the place is without the byte. -/
theorem strchr_place_none (h : 0 ∉ text) (front back : Bytes) (c : UInt8) :
    strchr (front ++ text ++ 0 :: back) front.length c = none ↔ c ∉ text := by
  rw [strchr, cstr_place h, Option.map_eq_none_iff, List.idxOf?_eq_none_iff]

/-- Nothing is found exactly if the bytes do not occur. -/
theorem find_sub_eq_none : findSub needle text = none ↔ ¬ needle <:+: text := by
  induction text with
  | nil =>
      rw [findSub, List.infix_nil]
      split <;> simp_all
  | cons b rest ih =>
      rw [findSub, List.infix_cons_iff]
      split
      · rename_i hpre
        simp [hpre]
      · rename_i hpre
        rw [Option.map_eq_none_iff, ih]
        simp [hpre]

/-- A line feed never starts a line end, so one can only start where a text without one ends. -/
theorem not_crlf_before {b : UInt8} (h : ¬ crlf <:+: b :: line) (more : Bytes) :
    ¬ crlf <+: b :: (line ++ crlf ++ more) := by
  intro hpre
  cases line with
  | nil =>
      obtain ⟨-, hnext⟩ := List.cons_prefix_cons.mp hpre
      exact absurd (List.cons_prefix_cons.mp hnext).1 (by decide)
  | cons c line =>
      have hshort : crlf <+: b :: c :: line := by
        obtain ⟨rfl, hnext⟩ := List.cons_prefix_cons.mp hpre
        obtain ⟨rfl, -⟩ := List.cons_prefix_cons.mp hnext
        exact ⟨line, rfl⟩
      exact h hshort.isInfix

/-- The first line end of a text that starts with a line. -/
theorem find_crlf (h : ¬ crlf <:+: line) (more : Bytes) :
    findSub crlf (line ++ crlf ++ more) = some line.length := by
  induction line with
  | nil => exact if_pos ⟨more, rfl⟩
  | cons b line ih =>
      have hline : ¬ crlf <:+: line := fun hin => h (List.infix_cons hin)
      show findSub crlf (b :: (line ++ crlf ++ more)) = _
      rw [findSub, if_neg (not_crlf_before h more), ih hline]
      rfl

/-- `strstr` finds the end of a line without NUL bytes. -/
theorem strstr_crlf_place (hnul : 0 ∉ line) (h : ¬ crlf <:+: line) (front more : Bytes) :
    strstr (front ++ line ++ crlf ++ more) front.length crlf =
      some (front.length + line.length) := by
  have hall : ∀ b ∈ line ++ crlf, decide (b ≠ 0) = true := by
    intro b hb
    refine decide_eq_true fun hzero => ?_
    rcases List.mem_append.mp hb with hb | hb
    · exact hnul (hzero ▸ hb)
    · exact absurd (hzero ▸ hb) (by decide)
  have hcstr : cstr (front ++ line ++ crlf ++ more) front.length =
      line ++ crlf ++ more.takeWhile (· ≠ 0) := by
    rw [cstr, List.append_assoc, List.append_assoc, List.drop_left, ← List.append_assoc,
      List.takeWhile_append_of_pos hall]
  rw [strstr, hcstr, find_crlf h]
  rfl

/-- `strstr` does not look past a NUL byte. -/
theorem strstr_nul_place (hnul : 0 ∉ text) (h : ¬ crlf <:+: text) (front back : Bytes) :
    strstr (front ++ text ++ 0 :: back) front.length crlf = none := by
  rw [strstr, cstr_place hnul, Option.map_eq_none_iff, find_sub_eq_none]
  exact h

/-! ## Buffers cut by NUL bytes -/

/-- What is left of a buffer after NUL bytes were written into it. -/
structure CutFrom (buffer cut : Bytes) : Prop where
  length_eq : cut.length = buffer.length
  byte : ∀ (i : Nat) (b : UInt8), cut[i]? = some b → b = 0 ∨ buffer[i]? = some b

/-- Nothing has been cut. -/
theorem CutFrom.refl (buffer : Bytes) : CutFrom buffer buffer :=
  ⟨rfl, fun _ _ h => Or.inr h⟩

/-- What is cut from a cut buffer is cut from the buffer. -/
theorem CutFrom.trans {first second third : Bytes} (h : CutFrom first second)
    (h' : CutFrom second third) : CutFrom first third := by
  refine ⟨h'.length_eq.trans h.length_eq, fun i b hb => ?_⟩
  rcases h'.byte i b hb with hnul | hb
  · exact Or.inl hnul
  · exact h.byte i b hb

/-- Writing one NUL byte. -/
theorem CutFrom.set (buffer : Bytes) (i : Nat) : CutFrom buffer (buffer.set i 0) := by
  refine ⟨List.length_set, fun j b hb => ?_⟩
  by_cases hij : i = j
  · subst hij
    rw [List.getElem?_set_self'] at hb
    obtain ⟨_, _, rfl⟩ := Option.map_eq_some_iff.mp hb
    exact Or.inl rfl
  · rw [List.getElem?_set_ne hij] at hb
    exact Or.inr hb

/-- A NUL byte stays one. -/
theorem CutFrom.nul {cut : Bytes} (h : CutFrom buffer cut) (hnul : buffer[i]? = some 0) :
    cut[i]? = some 0 := by
  have hlt : i < cut.length := h.length_eq ▸ (List.getElem?_eq_some_iff.mp hnul).1
  obtain ⟨b, hb⟩ : ∃ b, cut[i]? = some b := ⟨cut[i], List.getElem?_eq_getElem hlt⟩
  rcases h.byte i b hb with rfl | hbuffer
  · exact hb
  · rwa [hbuffer.symm.trans hnul] at hb

end CString
