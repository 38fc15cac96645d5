import Mathlib.Data.List.Nodup
import Mathlib.Data.List.Perm.Basic
import Mathlib.Tactic.Common

/-!
# Allocated blocks

Programs that allocate, read, write and free blocks. A block's number is not used again, and
touching a block that has been freed is a fault. `Ensures` is the rule of pre- and postconditions;
what is live afterwards is stated completely, so that a block nobody answers for is a leak.
-/

namespace Blocks

variable {κ α β : Type}

/-- The live blocks. -/
structure Heap (κ : Type) where
  blocks : List (Nat × κ)
  fresh : Nat
  below : ∀ block ∈ blocks, block.1 < fresh
  nodup : (blocks.map Prod.fst).Nodup

/-- No block is live. -/
def Heap.empty : Heap κ := ⟨[], 0, fun _ h => absurd h List.not_mem_nil, List.nodup_nil⟩

/-- These are the live blocks with their contents. -/
def Heap.Holds (heap : Heap κ) (cells : List (Nat × κ)) : Prop := heap.blocks.Perm cells

/-- A program on the heap; `none` is a fault. -/
abbrev Program (κ α : Type) := StateT (Heap κ) Option α

/-- Undefined behaviour: the program does not go on. -/
def fault : Program κ α := fun _ => none

/-! ## The operations -/

/-- The contents of a live block. -/
def Heap.find? (heap : Heap κ) (p : Nat) : Option κ :=
  (heap.blocks.find? fun block => block.1 = p).map Prod.snd

/-- A new block, with a number that no block has had. -/
def Heap.insert (heap : Heap κ) (cell : κ) : Heap κ where
  blocks := (heap.fresh, cell) :: heap.blocks
  fresh := heap.fresh + 1
  below block hblock := by
    rcases List.mem_cons.mp hblock with rfl | hblock
    · exact Nat.lt_succ_self _
    · exact Nat.lt_succ_of_lt (heap.below block hblock)
  nodup := by
    refine List.nodup_cons.mpr ⟨fun hmem => ?_, heap.nodup⟩
    obtain ⟨block, hblock, heq⟩ := List.mem_map.mp hmem
    exact absurd heq (Nat.ne_of_lt (heap.below block hblock))

/-- The block with the new contents, if it is the one that is written. -/
def put (p : Nat) (cell : κ) (block : Nat × κ) : Nat × κ :=
  if block.1 = p then (p, cell) else block

/-- A write leaves the number of a block alone. -/
theorem put_fst (p : Nat) (cell : κ) (block : Nat × κ) : (put p cell block).1 = block.1 := by
  unfold put
  split
  · next heq => exact heq.symm
  · rfl

/-- The contents of a block are replaced. -/
def Heap.update (heap : Heap κ) (p : Nat) (cell : κ) : Heap κ where
  blocks := heap.blocks.map (put p cell)
  fresh := heap.fresh
  below block hblock := by
    obtain ⟨original, horiginal, rfl⟩ := List.mem_map.mp hblock
    rw [put_fst]
    exact heap.below original horiginal
  nodup := by
    rw [List.map_map, show Prod.fst ∘ put p cell = Prod.fst from funext (put_fst p cell)]
    exact heap.nodup

/-- A block is live no more. -/
def Heap.remove (heap : Heap κ) (p : Nat) : Heap κ where
  blocks := heap.blocks.filter fun block => block.1 ≠ p
  fresh := heap.fresh
  below block hblock := heap.below block (List.mem_of_mem_filter hblock)
  nodup := heap.nodup.sublist (List.filter_sublist.map Prod.fst)

/-- `malloc`, `calloc` and `strdup`: `none` is `NULL`. -/
def alloc (cell : κ) (succeeds : Bool) : Program κ (Option Nat) := fun heap =>
  if succeeds then some (some heap.fresh, heap.insert cell) else some (none, heap)

/-- A read, which faults if the block is not live. -/
def read (p : Nat) : Program κ κ := fun heap => (heap.find? p).map fun cell => (cell, heap)

/-- A write, which faults if the block is not live. -/
def write (p : Nat) (cell : κ) : Program κ Unit := fun heap =>
  (heap.find? p).map fun _ => ((), heap.update p cell)

/-- `free`, which does nothing for `NULL`. -/
def free (p : Option Nat) : Program κ Unit := fun heap =>
  match p with
  | none => some ((), heap)
  | some p => (heap.find? p).map fun _ => ((), heap.remove p)

/-! ## What the operations do to the blocks -/

variable {heap : Heap κ} {p : Nat} {cell : κ} {rest : List (Nat × κ)}

/-- No block is named twice. -/
theorem Heap.Holds.distinct (h : heap.Holds ((p, cell) :: rest)) : ∀ block ∈ rest, block.1 ≠ p := by
  have hnodup := ((h.map Prod.fst).nodup_iff).mp heap.nodup
  rw [List.map_cons, List.nodup_cons] at hnodup
  exact fun block hblock heq => hnodup.1 (List.mem_map.mpr ⟨block, hblock, heq⟩)

/-- The contents of the first block. -/
theorem Heap.Holds.find (h : heap.Holds ((p, cell) :: rest)) : heap.find? p = some cell := by
  have hmem : (p, cell) ∈ heap.blocks := h.mem_iff.mpr List.mem_cons_self
  obtain ⟨found, hfound⟩ := Option.isSome_iff_exists.mp
    (List.find?_isSome.mpr ⟨(p, cell), hmem, decide_eq_true rfl⟩ :
      (heap.blocks.find? fun block => block.1 = p).isSome)
  have hkey : found.1 = p := by simpa using List.find?_some hfound
  rw [Heap.find?, hfound, Option.map_some]
  rcases List.mem_cons.mp (h.mem_iff.mp (List.mem_of_find?_eq_some hfound)) with rfl | hrest
  · rfl
  · exact absurd hkey (h.distinct found hrest)

/-- The contents of any block. -/
theorem Heap.Holds.find_of_mem {cells : List (Nat × κ)} (h : heap.Holds cells) {block : Nat × κ}
    (hblock : block ∈ cells) : heap.find? block.1 = some block.2 := by
  obtain ⟨front, back, rfl⟩ := List.append_of_mem hblock
  exact Heap.Holds.find (List.Perm.trans h List.perm_middle)

/-- A new block is held besides the others. -/
theorem Heap.Holds.insert {cells : List (Nat × κ)} (h : heap.Holds cells) (cell : κ) :
    (heap.insert cell).Holds ((heap.fresh, cell) :: cells) :=
  List.Perm.cons _ h

/-- A write changes the contents of its block alone. -/
theorem Heap.Holds.update (h : heap.Holds ((p, cell) :: rest)) (new : κ) :
    (heap.update p new).Holds ((p, new) :: rest) := by
  have hrest : rest.map (put p new) = rest := by
    refine (List.map_congr_left fun block hblock => ?_).trans (List.map_id _)
    exact if_neg (h.distinct block hblock)
  have hmapped := List.Perm.map (put p new) h
  rw [List.map_cons, hrest, put, if_pos rfl] at hmapped
  exact hmapped

/-- Without the block that is freed the others are held. -/
theorem Heap.Holds.remove (h : heap.Holds ((p, cell) :: rest)) : (heap.remove p).Holds rest := by
  have hrest : rest.filter (fun block => block.1 ≠ p) = rest :=
    List.filter_eq_self.mpr fun block hblock => decide_eq_true (h.distinct block hblock)
  have hfiltered := List.Perm.filter (fun block => decide (block.1 ≠ p)) h
  rw [List.filter_cons_of_neg (by simp), hrest] at hfiltered
  exact hfiltered

/-! ## Pre- and postconditions -/

/-- On every heap that holds the cells the program runs without a fault, and its result and the
cells it leaves satisfy the postcondition. -/
def Ensures (cells : List (Nat × κ)) (program : Program κ α)
    (post : α → List (Nat × κ) → Prop) : Prop :=
  ∀ heap : Heap κ, heap.Holds cells →
    ∃ value heap' left, program heap = some (value, heap') ∧ heap'.Holds left ∧ post value left

variable {cells rest : List (Nat × κ)} {post : α → List (Nat × κ) → Prop}

/-- The rule of a program that returns. -/
theorem ensures_pure {value : α} (h : post value cells) : Ensures cells (pure value) post :=
  fun heap hheap => ⟨value, heap, cells, rfl, hheap, h⟩

/-- The rule of two programs one after the other. -/
theorem Ensures.bind {program : Program κ β} {next : β → Program κ α}
    {between : β → List (Nat × κ) → Prop} (h : Ensures cells program between)
    (hnext : ∀ value left, between value left → Ensures left (next value) post) :
    Ensures cells (program >>= next) post := by
  intro heap hheap
  obtain ⟨value, middle, left, hrun, hleft, hbetween⟩ := h heap hheap
  obtain ⟨result, final, last, hrest, hlast, hpost⟩ := hnext value left hbetween middle hleft
  refine ⟨result, final, last, ?_, hlast, hpost⟩
  show (program heap >>= fun outcome => next outcome.1 outcome.2) = _
  rw [hrun]
  exact hrest

/-- The order of the cells does not matter. -/
theorem Ensures.perm {program : Program κ α} {other : List (Nat × κ)}
    (h : Ensures other program post) (hperm : cells.Perm other) : Ensures cells program post :=
  fun heap hheap => h heap (List.Perm.trans hheap hperm)

/-- The rule of consequence. -/
theorem Ensures.mono {program : Program κ α} {weaker : α → List (Nat × κ) → Prop}
    (h : Ensures cells program post) (hpost : ∀ value left, post value left → weaker value left) :
    Ensures cells program weaker := by
  intro heap hheap
  obtain ⟨value, heap', left, hrun, hleft, hvalue⟩ := h heap hheap
  exact ⟨value, heap', left, hrun, hleft, hpost value left hvalue⟩

section Operations

variable {p : Nat} {cell : κ}

/-- An allocation gives a block that nobody has, or fails. -/
theorem ensures_alloc {succeeds : Bool} {next : Option Nat → Program κ α}
    (hsucceeds : succeeds = true → ∀ p, Ensures ((p, cell) :: cells) (next (some p)) post)
    (hfails : succeeds = false → Ensures cells (next none) post) :
    Ensures cells (alloc cell succeeds >>= next) post := by
  intro heap hheap
  cases succeeds with
  | true => exact hsucceeds rfl heap.fresh (heap.insert cell) (hheap.insert cell)
  | false => exact hfails rfl heap hheap

/-- The rule of a read: it goes on with the contents of the block. -/
theorem ensures_read {next : κ → Program κ α}
    (h : Ensures ((p, cell) :: rest) (next cell) post) :
    Ensures ((p, cell) :: rest) (read p >>= next) post := by
  intro heap hheap
  obtain ⟨value, heap', left, hrun, hleft, hpost⟩ := h heap hheap
  refine ⟨value, heap', left, ?_, hleft, hpost⟩
  show (((heap.find? p).map fun cell => (cell, heap)) >>= fun outcome =>
    next outcome.1 outcome.2) = _
  rw [hheap.find]
  exact hrun

variable {next : Unit → Program κ α}

/-- The rule of a write: it goes on with the new contents. -/
theorem ensures_write {new : κ} (h : Ensures ((p, new) :: rest) (next ()) post) :
    Ensures ((p, cell) :: rest) (write p new >>= next) post := by
  intro heap hheap
  obtain ⟨value, heap', left, hrun, hleft, hpost⟩ := h (heap.update p new) (hheap.update new)
  refine ⟨value, heap', left, ?_, hleft, hpost⟩
  show (((heap.find? p).map fun _ => ((), heap.update p new)) >>= fun outcome =>
    next outcome.1 outcome.2) = _
  rw [hheap.find]
  exact hrun

/-- The rule of `free`: it goes on without the block. -/
theorem ensures_free (h : Ensures rest (next ()) post) :
    Ensures ((p, cell) :: rest) (free (some p) >>= next) post := by
  intro heap hheap
  obtain ⟨value, heap', left, hrun, hleft, hpost⟩ := h (heap.remove p) hheap.remove
  refine ⟨value, heap', left, ?_, hleft, hpost⟩
  show (((heap.find? p).map fun _ => ((), heap.remove p)) >>= fun outcome =>
    next outcome.1 outcome.2) = _
  rw [hheap.find]
  exact hrun

/-- `free (NULL)` goes on with the same blocks. -/
theorem ensures_free_null (h : Ensures cells (next ()) post) :
    Ensures cells (free none >>= next) post :=
  h

end Operations

end Blocks
