import Emme.Lib.CString

/-!
# Checked memory

Programs that read and write an array through indices. An access outside of it, a write to its last
byte and a loop without an end are faults. `Yields program buffer value cut` says that a program
runs without a fault, returns the value and leaves `cut` in front of the terminator.
-/

namespace Memory

open CString

variable {α β : Type}

/-- A program on an array; `none` is a fault. -/
abbrev Access (α : Type) := StateT Bytes Option α

/-- Undefined behaviour: the program does not go on. -/
def fault : Access α := fun _ => none

/-- A read, which faults outside the array. -/
def load (i : Nat) : Access UInt8 := fun memory => memory[i]?.map fun b => (b, memory)

/-- A write to any byte but the last. -/
def store (i : Nat) (b : UInt8) : Access Unit := fun memory =>
  if i + 1 < memory.length then some ((), memory.set i b) else none

/-- Rounds for one index after another, until one of them has a result. -/
def loopFrom (body : Nat → Access (Option α)) : Nat → Nat → Access α
  | 0, _ => fault
  | fuel + 1, i => do
      match ← body i with
      | some result => pure result
      | none => loopFrom body fuel (i + 1)

/-- A loop over the bytes of the array, which makes at most as many rounds as there are bytes. -/
def scan (body : Nat → Access (Option α)) (pos : Nat) : Access α := fun memory =>
  loopFrom body memory.length pos memory

/-- Whether these bytes stand at an index; the comparison ends at the first difference. -/
def matchAt : Bytes → Nat → Access Bool
  | [], _ => pure true
  | c :: needle, i => do
      let b ← load i
      if b = c then matchAt needle (i + 1) else pure false

/-- `strchr` for a byte other than NUL. -/
def strchr (pos : Nat) (c : UInt8) : Access (Option Nat) :=
  scan (fun i => do
    let b ← load i
    pure (if b = c then some (some i) else if b = 0 then some none else none)) pos

/-- `strstr`. -/
def strstr (pos : Nat) (needle : Bytes) : Access (Option Nat) :=
  scan (fun i => do
    if ← matchAt needle i then pure (some (some i))
    else do
      let b ← load i
      pure (if b = 0 then some none else none)) pos

/-- `for (p = s; *p; p++) if (!holds(*p)) return 0`. -/
def allFrom (holds : UInt8 → Bool) (pos : Nat) : Access Bool :=
  scan (fun i => do
    let b ← load i
    pure (if b = 0 then some true else if holds b then none else some false)) pos

/-- `while (*s && holds(*s)) s++`. -/
def skipWhile (holds : UInt8 → Bool) (pos : Nat) : Access Nat :=
  scan (fun i => do
    let b ← load i
    pure (if b ≠ 0 ∧ holds b = true then none else some i)) pos

/-! ## Runs without a fault -/

/-- The program runs without a fault on the buffer and its terminator. -/
def Yields (program : Access α) (buffer : Bytes) (value : α) (cut : Bytes) : Prop :=
  program (buffer ++ [0]) = some (value, cut ++ [0])

/-- A program that returns. -/
theorem yields_pure (value : α) (buffer : Bytes) : Yields (pure value) buffer value buffer := rfl

variable {buffer : Bytes} {value : α} {i pos : Nat} {body : Nat → Access (Option α)}
  {outcome : Option (Bytes × α)}

/-- Two programs one after the other. -/
theorem Yields.bind {program : Access α} {next : α → Access β} {middle cut : Bytes} {result : β}
    (h : Yields program buffer value middle) (hnext : Yields (next value) middle result cut) :
    Yields (program >>= next) buffer result cut := by
  show (program (buffer ++ [0]) >>= fun outcome => next outcome.1 outcome.2) = _
  rw [h]
  exact hnext

/-- The terminator can be read. -/
theorem yields_load (h : i ≤ buffer.length) : Yields (load i) buffer (byteAt buffer i) buffer := by
  have hget : (buffer ++ [0])[i]? = some (byteAt buffer i) := by
    rw [byteAt, List.getD_eq_getElem?_getD]
    rcases Nat.lt_or_eq_of_le h with hlt | rfl
    · rw [List.getElem?_append_left hlt, List.getElem?_eq_getElem hlt]
      rfl
    · simp
  unfold Yields load
  rw [hget]
  rfl

/-- A write inside the buffer. -/
theorem yields_store (h : i < buffer.length) (b : UInt8) :
    Yields (store i b) buffer () (buffer.set i b) := by
  unfold Yields store
  rw [if_pos (by simpa using h), List.set_append_left _ _ h]

/-- The rule for loops over the bytes of an array: every round has the result of the rest of the
loop, or leaves it to the next round, which the one at the terminator does not. -/
theorem yields_loop {result : Nat → α}
    (hbody : ∀ i ≤ buffer.length, Yields (body i) buffer (some (result i)) buffer ∨
      (i < buffer.length ∧ Yields (body i) buffer none buffer ∧ result i = result (i + 1)))
    {fuel : Nat} (hpos : pos ≤ buffer.length) (hfuel : buffer.length - pos < fuel) :
    Yields (loopFrom body fuel pos) buffer (result pos) buffer := by
  induction fuel generalizing pos with
  | zero => exact absurd hfuel (Nat.not_lt_zero _)
  | succ fuel ih =>
      rw [loopFrom]
      rcases hbody pos hpos with hdone | ⟨hlt, hmore, hsame⟩
      · exact hdone.bind (yields_pure _ _)
      · refine hmore.bind ?_
        rw [hsame]
        exact ih hlt (by omega)

/-- A loop that looks at one byte after the other: each round returns the result, or leaves it to
the next and is not at the terminator. -/
theorem yields_scan (result : Nat → α)
    (hbody : ∀ i ≤ buffer.length, Yields (body i) buffer (some (result i)) buffer ∨
      (i < buffer.length ∧ Yields (body i) buffer none buffer ∧ result i = result (i + 1)))
    (hpos : pos ≤ buffer.length) : Yields (scan body pos) buffer (result pos) buffer := by
  have hlength : buffer.length - pos < (buffer ++ [0]).length := by
    rw [List.length_append, List.length_singleton]
    omega
  exact yields_loop hbody hpos hlength

/-! ## The functions of `<string.h>` -/

/-- The comparison stops at the terminator. -/
theorem yields_match_at {needle : Bytes} (h : 0 ∉ needle) {buffer : Bytes} {pos : Nat}
    (hpos : pos ≤ buffer.length) :
    Yields (matchAt needle pos) buffer (decide (needle <+: cstr buffer pos)) buffer := by
  induction needle generalizing pos with
  | nil =>
      rw [decide_eq_true List.nil_prefix]
      exact yields_pure _ _
  | cons c needle ih =>
      obtain ⟨hc, hneedle⟩ := not_or.mp (List.mem_cons.not.mp h)
      refine (yields_load hpos).bind ?_
      rw [cstr_eq]
      by_cases hbyte : byteAt buffer pos = c
      · have hlt : pos < buffer.length := lt_length_of_byte_at_ne (hbyte ▸ Ne.symm hc)
        rw [if_pos hbyte, if_neg (hbyte ▸ Ne.symm hc), hbyte]
        simpa [List.cons_prefix_cons] using ih hneedle hlt
      · have hnot : ¬ (c :: needle <+: if byteAt buffer pos = 0 then [] else
            byteAt buffer pos :: cstr buffer (pos + 1)) := by
          split
          · simp
          · exact fun hpre => hbyte (List.cons_prefix_cons.mp hpre).1.symm
        rw [if_neg hbyte, decide_eq_false hnot]
        exact yields_pure _ _

/-- The program finds what the function on buffers finds. -/
theorem yields_strchr {c : UInt8} (hc : c ≠ 0) (hpos : pos ≤ buffer.length) :
    Yields (strchr pos c) buffer (CString.strchr buffer pos c) buffer := by
  refine yields_scan (CString.strchr buffer · c) (fun i hi => ?_) hpos
  rcases strchr_at buffer i c with ⟨hbyte, hfound⟩ | ⟨hbyte, hnone⟩ | ⟨hne, hnul, hnext⟩
  · refine .inl ((yields_load hi).bind ?_)
    rw [if_pos hbyte, hfound]
    exact yields_pure _ _
  · refine .inl ((yields_load hi).bind ?_)
    rw [hbyte, if_neg hc.symm, if_pos rfl, hnone]
    exact yields_pure _ _
  · refine .inr ⟨lt_length_of_byte_at_ne hnul, (yields_load hi).bind ?_, hnext⟩
    rw [if_neg hne, if_neg hnul]
    exact yields_pure _ _

/-- The program finds what the function on buffers finds. -/
theorem yields_strstr {needle : Bytes} (hneedle : needle ≠ []) (hnul : 0 ∉ needle)
    (hpos : pos ≤ buffer.length) :
    Yields (strstr pos needle) buffer (CString.strstr buffer pos needle) buffer := by
  refine yields_scan (CString.strstr buffer · needle) (fun i hi => ?_) hpos
  have hmatch := yields_match_at hnul hi
  rcases strstr_at buffer i hneedle with ⟨hpre, hfound⟩ | ⟨hpre, hbyte, hnone⟩ |
    ⟨hpre, hbyte, hnext⟩
  · rw [decide_eq_true hpre] at hmatch
    rw [hfound]
    exact .inl (hmatch.bind (yields_pure _ _))
  · rw [decide_eq_false hpre] at hmatch
    refine .inl (hmatch.bind ((yields_load hi).bind ?_))
    rw [if_pos hbyte, hnone]
    exact yields_pure _ _
  · rw [decide_eq_false hpre] at hmatch
    refine .inr ⟨lt_length_of_byte_at_ne hbyte, hmatch.bind ((yields_load hi).bind ?_), hnext⟩
    rw [if_neg hbyte]
    exact yields_pure _ _

/-- The loop tests the bytes up to the terminator. -/
theorem yields_all_from (holds : UInt8 → Bool) (hpos : pos ≤ buffer.length) :
    Yields (allFrom holds pos) buffer ((cstr buffer pos).all holds) buffer := by
  refine yields_scan (fun i => (cstr buffer i).all holds) (fun i hi => ?_) hpos
  have hcstr := cstr_eq buffer i
  by_cases hnul : byteAt buffer i = 0
  · refine .inl ((yields_load hi).bind ?_)
    rw [if_pos hnul] at hcstr ⊢
    rw [hcstr]
    exact yields_pure _ _
  · rw [if_neg hnul] at hcstr
    cases hbyte : holds (byteAt buffer i) with
    | true =>
        refine .inr ⟨lt_length_of_byte_at_ne hnul, (yields_load hi).bind ?_, ?_⟩
        · rw [if_neg hnul, if_pos hbyte]
          exact yields_pure _ _
        · rw [hcstr, List.all_cons, hbyte, Bool.true_and]
    | false =>
        refine .inl ((yields_load hi).bind ?_)
        rw [if_neg hnul, if_neg (Bool.not_eq_true _ ▸ hbyte), hcstr, List.all_cons, hbyte,
          Bool.false_and]
        exact yields_pure _ _

/-- The loop skips bytes up to the terminator. -/
theorem yields_skip_while (holds : UInt8 → Bool) (hpos : pos ≤ buffer.length) :
    Yields (skipWhile holds pos) buffer (pos + ((cstr buffer pos).takeWhile holds).length)
      buffer := by
  refine yields_scan (fun i => i + ((cstr buffer i).takeWhile holds).length)
    (fun i hi => ?_) hpos
  have hcstr := cstr_eq buffer i
  by_cases hskip : byteAt buffer i ≠ 0 ∧ holds (byteAt buffer i) = true
  · refine .inr ⟨lt_length_of_byte_at_ne hskip.1, (yields_load hi).bind ?_, ?_⟩
    · rw [if_pos hskip]
      exact yields_pure _ _
    · rw [hcstr, if_neg hskip.1, List.takeWhile_cons_of_pos hskip.2, List.length_cons]
      omega
  · have hstop : (cstr buffer i).takeWhile holds = [] := by
      rw [hcstr]
      split
      · rfl
      · rename_i hnul
        exact List.takeWhile_cons_of_neg fun hholds => hskip ⟨hnul, hholds⟩
    refine .inl ((yields_load hi).bind ?_)
    rw [if_neg hskip, hstop]
    exact yields_pure _ _

/-! ## Cutting a buffer in place -/

/-- A program that may give up. -/
abbrev Attempt (α : Type) := OptionT Access α

/-- What follows a program that gives up is not run. -/
theorem Yields.gave_up {program : Attempt α} {next : α → Attempt β} {cut : Bytes}
    (h : Yields program.run buffer none cut) : Yields (program >>= next).run buffer none cut := by
  show Yields (program.run >>= fun
    | some value => (next value).run
    | none => pure none) buffer none cut
  exact h.bind (yields_pure _ _)

/-- What follows a program that has not given up. -/
theorem Yields.went_on {program : Attempt α} {next : α → Attempt β} {middle cut : Bytes}
    {result : Option β} (h : Yields program.run buffer (some value) middle)
    (hnext : Yields (next value).run middle result cut) :
    Yields (program >>= next).run buffer result cut := by
  show Yields (program.run >>= fun
    | some value => (next value).run
    | none => pure none) buffer result cut
  exact h.bind hnext

/-- A program that cannot give up. -/
theorem Yields.lift {program : Access α} {cut : Bytes} (h : Yields program buffer value cut) :
    Yields (liftM program : Attempt α).run buffer (some value) cut := by
  show Yields (program >>= fun value => pure (some value)) buffer (some value) cut
  exact h.bind (yields_pure _ _)

/-- The program runs without a fault and writes NUL bytes only, at allowed places; it returns what
the function on buffers returns, and leaves the same buffer unless it gives up. -/
def Implements (allowed : Nat → Prop) (program : Attempt α) (buffer : Bytes)
    (outcome : Option (Bytes × α)) : Prop :=
  ∃ result cut, Yields program.run buffer result cut ∧ outcome = result.map (cut, ·) ∧
    cut.length = buffer.length ∧
    ∀ i : Nat, cut[i]? ≠ buffer[i]? → cut[i]? = some 0 ∧ allowed i

variable {allowed : Nat → Prop} {buffer : Bytes}

/-- A program that returns. -/
theorem implements_pure (value : α) :
    Implements allowed (pure value) buffer (some (buffer, value)) :=
  ⟨some value, buffer, yields_pure _ _, rfl, rfl, fun _ h => absurd rfl h⟩

/-- A program that gives up. -/
theorem implements_failure : Implements allowed (failure : Attempt α) buffer none :=
  ⟨none, buffer, yields_pure _ _, rfl, rfl, fun _ h => absurd rfl h⟩

variable {next : β → Attempt α}

/-- A program that only reads. -/
theorem Implements.read {program : Access β} {value : β} (h : Yields program buffer value buffer)
    (hnext : Implements allowed (next value) buffer outcome) :
    Implements allowed (liftM program >>= next) buffer outcome := by
  obtain ⟨result, cut, hrun, hrest⟩ := hnext
  exact ⟨result, cut, h.lift.went_on hrun, hrest⟩

/-- A program that only reads and may find nothing. -/
theorem Implements.find {program : Access (Option β)} {found : Option β}
    {outcome : β → Option (Bytes × α)} (h : Yields program buffer found buffer)
    (hnext : ∀ value, found = some value →
      Implements allowed (next value) buffer (outcome value)) :
    Implements allowed (OptionT.mk program >>= next) buffer (found >>= outcome) := by
  cases found with
  | none => exact ⟨none, buffer, Yields.gave_up h, rfl, rfl, fun _ h => absurd rfl h⟩
  | some value =>
      obtain ⟨result, cut, hrun, hrest⟩ := hnext value rfl
      exact ⟨result, cut, Yields.went_on h hrun, hrest⟩

/-- A program that gives up unless a test is met. -/
theorem Implements.guarded {p : Prop} [Decidable p] {next : Attempt α}
    (hnext : p → Implements allowed next buffer outcome) :
    Implements allowed (guard p >>= fun _ => next) buffer (guard p >>= fun _ => outcome) := by
  by_cases hp : p
  · unfold guard
    rw [if_pos hp, if_pos hp, pure_bind, pure_bind]
    exact hnext hp
  · unfold guard
    rw [if_neg hp, if_neg hp]
    exact implements_failure

/-- A NUL byte is written at an allowed place. -/
theorem Implements.cut {next : Attempt α} (hi : i < buffer.length) (hallowed : allowed i)
    (hnext : Implements allowed next (buffer.set i 0) outcome) :
    Implements allowed (liftM (store i 0) >>= fun _ => next) buffer outcome := by
  obtain ⟨result, cut, hrun, houtcome, hlength, hchanged⟩ := hnext
  refine ⟨result, cut, (yields_store hi 0).lift.went_on hrun, houtcome,
    hlength.trans List.length_set, fun j hj => ?_⟩
  by_cases hsame : cut[j]? = (buffer.set i 0)[j]?
  · by_cases hij : i = j
    · subst hij
      rw [hsame, List.getElem?_set_self hi]
      exact ⟨rfl, hallowed⟩
    · rw [hsame, List.getElem?_set_ne hij] at hj
      exact absurd rfl hj
  · exact hchanged j hsame

/-- One program after another. -/
theorem Implements.bind {program : Attempt β} {outcome : Option (Bytes × β)}
    {last : Option (Bytes × α)} (h : Implements allowed program buffer outcome)
    (hnone : outcome = none → last = none)
    (hnext : ∀ cut value, outcome = some (cut, value) → cut.length = buffer.length →
      Implements allowed (next value) cut last) :
    Implements allowed (program >>= next) buffer last := by
  obtain ⟨result, middle, hrun, rfl, hlength, hchanged⟩ := h
  cases result with
  | none => exact ⟨none, middle, hrun.gave_up, hnone rfl, hlength, hchanged⟩
  | some value =>
      obtain ⟨result, cut, hrest, hlast, hlength', hchanged'⟩ := hnext middle value rfl hlength
      refine ⟨result, cut, hrun.went_on hrest, hlast, hlength'.trans hlength, fun i hi => ?_⟩
      by_cases hsame : cut[i]? = middle[i]?
      · rw [hsame] at hi ⊢
        exact hchanged i hi
      · exact hchanged' i hsame

end Memory
