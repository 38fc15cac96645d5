import Emme.Lib.Execution

/-!
# Reading a list piece by piece

A reader hands out a list from a cursor on: each call takes at most as many elements as it is
asked for and says whether it handed out the last one. `ReadsOut` says what the calls up to the
first such answer are to bring, and `read_until_last` that they do, whatever positive numbers of
elements are asked for.
-/

namespace Cursor

open Execution

variable {α : Type*}

/-- What a call hands out. -/
structure Piece (α : Type*) where
  chunk : List α
  last : Bool
  deriving DecidableEq, Repr

/-- One call, asked for at most `length` elements: what it hands out and the cursor behind it. -/
def read (whole : List α) (cursor length : Nat) : Piece α × Nat :=
  let chunk := (whole.drop cursor).take length
  (⟨chunk, decide (whole.length ≤ cursor + chunk.length)⟩, cursor + chunk.length)

/-- The pieces fit what was asked for and make up the list. Only the final one is marked, and it
brings the last element; for the empty list it is the only one. -/
structure ReadsOut (whole : List α) (lengths : List Nat) (pieces : List (Piece α)) : Prop where
  fits : List.Forall₂ (fun piece length => piece.chunk.length ≤ length) pieces lengths
  joined : (pieces.map Piece.chunk).flatten = whole
  stops : ∃ front final, pieces = front ++ [final] ∧ (∀ piece ∈ front, piece.last = false) ∧
    final.last = true ∧ (whole = [] → front = []) ∧ (whole ≠ [] → final.chunk ≠ [])

variable {whole : List α} {cursor : Nat}

/-- The cursor stays within the list. -/
theorem read_le (h : cursor ≤ whole.length) (length : Nat) :
    (read whole cursor length).2 ≤ whole.length := by
  simp only [read, List.length_take, List.length_drop]
  omega

/-- The last call. -/
theorem read_rest {length : Nat} (h : cursor ≤ whole.length)
    (hlength : whole.length ≤ cursor + length) :
    read whole cursor length = (⟨whole.drop cursor, true⟩, whole.length) := by
  have hall : (whole.drop cursor).take length = whole.drop cursor :=
    List.take_of_length_le (by rw [List.length_drop]; omega)
  simp only [read, hall, List.length_drop]
  simp only [Prod.mk.injEq, Piece.mk.injEq, true_and, decide_eq_true_eq]
  omega

/-- Every call before the last one. -/
theorem read_part {length : Nat} (hlength : cursor + length < whole.length) :
    read whole cursor length = (⟨(whole.drop cursor).take length, false⟩, cursor + length) := by
  have hsize : ((whole.drop cursor).take length).length = length := by
    rw [List.length_take, List.length_drop]
    omega
  simp only [read, hsize]
  simp only [Prod.mk.injEq, Piece.mk.injEq, true_and, and_true, decide_eq_false_iff_not]
  omega

/-- A piece before the others. -/
theorem ReadsOut.cons {whole : List α} {lengths : List Nat} {pieces : List (Piece α)}
    (h : ReadsOut whole lengths pieces) (hwhole : whole ≠ []) {chunk : List α} {length : Nat}
    (hchunk : chunk.length ≤ length) :
    ReadsOut (chunk ++ whole) (length :: lengths) (⟨chunk, false⟩ :: pieces) := by
  obtain ⟨front, final, rfl, hfront, hlast, -, hbrings⟩ := h.stops
  refine ⟨.cons hchunk h.fits, ?_, ⟨chunk, false⟩ :: front, final, rfl, ?_, hlast, ?_, ?_⟩
  · rw [List.map_cons, List.flatten_cons, h.joined]
  · exact List.forall_mem_cons.mpr ⟨rfl, hfront⟩
  · exact fun hnil => absurd (List.append_eq_nil_iff.mp hnil).2 hwhole
  · exact fun _ => hbrings hwhole

/-- Whatever positive numbers of elements are asked for, finitely many calls read the list from
the cursor on out. -/
theorem read_until_last (h : cursor ≤ whole.length) {lengths : Nat → Nat}
    (hpos : ∀ i, 0 < lengths i) :
    ∃ calls, ReadsOut (whole.drop cursor) ((List.range calls).map lengths)
      ((trace (read whole) cursor ((List.range calls).map lengths)).map Prod.snd) := by
  -- each call but the last brings the cursor closer to the end
  induction hrest : whole.length - cursor using Nat.strongRecOn generalizing cursor lengths
    with
  | _ rest ih =>
      by_cases hlast : whole.length ≤ cursor + lengths 0
      · refine ⟨1, ?_⟩
        have hcall : (trace (read whole) cursor ((List.range 1).map lengths)).map Prod.snd =
            [⟨whole.drop cursor, true⟩] := by
          show [(read whole cursor (lengths 0)).1] = _
          rw [read_rest h hlast]
        rw [hcall]
        have hsize : (whole.drop cursor).length ≤ lengths 0 := by
          rw [List.length_drop]
          omega
        exact ⟨.cons hsize .nil, List.append_nil _, [], _, rfl, nofun, rfl, fun _ => rfl, id⟩
      · have hnext : cursor + lengths 0 < whole.length := Nat.not_le.mp hlast
        have hfirst := hpos 0
        obtain ⟨calls, hreads⟩ := ih (whole.length - (cursor + lengths 0)) (by omega)
          (Nat.le_of_lt hnext) (fun i => hpos (i + 1)) rfl
        refine ⟨calls + 1, ?_⟩
        have hlengths : (List.range (calls + 1)).map lengths =
            lengths 0 :: (List.range calls).map fun i => lengths (i + 1) := by
          rw [List.range_succ_eq_map, List.map_cons, List.map_map]
          rfl
        have hreads := hreads.cons
          (fun hnil => absurd (List.drop_eq_nil_iff.mp hnil) (Nat.not_le.mpr hnext))
          (List.length_take_le (lengths 0) (whole.drop cursor))
        rw [← List.drop_drop, List.take_append_drop] at hreads
        rw [hlengths, trace_cons, List.map_cons, read_part hnext]
        exact hreads

end Cursor
