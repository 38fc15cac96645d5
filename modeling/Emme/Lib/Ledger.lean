import Mathlib.Data.List.Perm.Basic
import Mathlib.Data.List.Count
import Mathlib.Data.List.Nodup
import Mathlib.Tactic.Common

/-!
# Ledgers

An account in which entries are opened, held by somebody, and closed. `Balanced opened closed
held` says that every opened entry is closed or held, none of them twice. Opening, closing and
passing on an entry keep it so; if no entry is opened twice, an entry is closed once if nobody
holds it and not at all otherwise (`Balanced.count_closed`).
-/

namespace Ledger

variable {α : Type*} {opened closed held held' : List α} {entry : α}

/-- Every opened entry is closed or held. -/
def Balanced (opened closed held : List α) : Prop := opened.Perm (closed ++ held)

/-- At the start nothing has been opened. -/
theorem Balanced.nil : Balanced ([] : List α) [] [] := List.Perm.refl []

/-- Who holds an entry does not matter. -/
theorem Balanced.pass (h : Balanced opened closed held) (hheld : held.Perm held') :
    Balanced opened closed held' :=
  h.trans (hheld.append_left closed)

/-- An entry is opened and held. -/
theorem Balanced.enter (h : Balanced opened closed held) (hheld : held'.Perm (entry :: held)) :
    Balanced (opened ++ [entry]) closed held' := by
  have hcons : (opened ++ [entry]).Perm (entry :: (closed ++ held)) :=
    (List.perm_append_singleton entry opened).trans (h.cons entry)
  exact hcons.trans (List.perm_middle.symm.trans (hheld.symm.append_left closed))

/-- An entry that is held is closed. -/
theorem Balanced.close (h : Balanced opened closed held) (hheld : held.Perm (entry :: held')) :
    Balanced opened (closed ++ [entry]) held' := by
  have hmoved := h.pass hheld
  rwa [Balanced, List.append_cons] at hmoved

/-- Entries of any kind are closed or held. -/
theorem Balanced.countP_eq (h : Balanced opened closed held) (p : α → Bool) :
    opened.countP p = closed.countP p + held.countP p := by
  rw [List.Perm.countP_eq p h, List.countP_append]

/-- Only opened entries are closed. -/
theorem Balanced.closed_subset (h : Balanced opened closed held) : closed ⊆ opened :=
  fun _ hentry => (List.Perm.mem_iff h).mpr (List.mem_append_left held hentry)

/-- An entry that was opened once is closed once, unless somebody holds it. -/
theorem Balanced.count_closed [DecidableEq α] (h : Balanced opened closed held)
    (hnodup : opened.Nodup) (hentry : entry ∈ opened) :
    closed.count entry = if entry ∈ held then 0 else 1 := by
  have hcount : opened.count entry = closed.count entry + held.count entry := by
    rw [List.Perm.count_eq h, List.count_append]
  rw [List.count_eq_one_of_mem hnodup hentry] at hcount
  split
  · rename_i hheld
    have hpos := List.count_pos_iff.mpr hheld
    omega
  · rename_i hheld
    rw [List.count_eq_zero_of_not_mem hheld] at hcount
    omega

end Ledger
