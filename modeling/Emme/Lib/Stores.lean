import Emme.Lib.CString
import Mathlib.Data.List.Basic

/-!
# Stores into a buffer

What a formatted output writes, byte by byte: each store with its index. `snprintf` ends what it
writes with a NUL byte, and its last index says whether it stays below a bound
(`snprintf_stores_below`).
-/

namespace Stores

open CString

/-- The index of a byte in a buffer and the byte stored there. -/
abbrev Store := Nat × UInt8

/-- Bytes stored one after the other. -/
def storesAt : Nat → Bytes → List Store
  | _, [] => []
  | start, b :: bytes => (start, b) :: storesAt (start + 1) bytes

/-- `snprintf (buffer + start, size, ..)` for a text: as much of it as leaves room for the NUL
byte, and that byte. -/
def snprintfStores (start size : Nat) (text : Bytes) : List Store :=
  if size = 0 then [] else storesAt start (text.take (size - 1) ++ [0])

/-- Bytes are stored below a bound exactly if there is room for all of them. -/
theorem stores_at_below {start bound : Nat} {bytes : Bytes} (h : bytes ≠ []) :
    (∀ store ∈ storesAt start bytes, store.1 < bound) ↔ start + bytes.length ≤ bound := by
  induction bytes generalizing start with
  | nil => exact absurd rfl h
  | cons b bytes ih =>
      rw [storesAt, List.forall_mem_cons, List.length_cons]
      cases bytes with
      | nil =>
          refine ⟨fun hall => hall.1, fun hle => ⟨hle, nofun⟩⟩
      | cons c bytes =>
          rw [ih (List.cons_ne_nil c bytes), List.length_cons]
          omega

/-- The last store of `snprintf` is the NUL byte. -/
theorem snprintf_stores_below {start size bound : Nat} (hsize : 0 < size) (text : Bytes) :
    (∀ store ∈ snprintfStores start size text, store.1 < bound) ↔
      start + min text.length (size - 1) < bound := by
  rw [snprintfStores, if_neg (Nat.ne_of_gt hsize), stores_at_below (by simp), List.length_append,
    List.length_take, List.length_singleton]
  omega

end Stores
