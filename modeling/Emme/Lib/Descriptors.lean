import Mathlib.Data.List.Perm.Basic
import Mathlib.Data.List.Nodup
import Mathlib.Logic.Function.Basic
import Mathlib.Tactic.Common

/-!
# Descriptor tables

A descriptor table with its history: `owner fd` says for whom `fd` is open, `opened` for whom a
number was opened, and `closes` lists the calls of `close` with the owner each was meant for and the
one it hit.

`Table.Backs` is the discipline under which no `close` hits another's descriptor: the program's
claims name every owner once and are all true.
-/

namespace Descriptors

variable {κ : Type*}

/-- A call of `close`. -/
structure Close (κ : Type*) where
  meant : κ
  hit : Option κ
  deriving DecidableEq, Repr

/-- A descriptor table with its history. -/
structure Table (κ : Type*) where
  owner : Nat → Option κ
  opened : List κ
  closes : List (Close κ)

/-- Open the number `fd`, which has to be free. -/
def Table.create (table : Table κ) (who : κ) (fd : Nat) : Option (Table κ) :=
  match table.owner fd with
  | none =>
      some { table with
        owner := Function.update table.owner fd (some who), opened := who :: table.opened }
  | some _ => none

/-- `close (fd)`, made to close the descriptor of `meant`. -/
def Table.close (table : Table κ) (meant : κ) (fd : Nat) : Table κ :=
  { table with
    owner := Function.update table.owner fd none
    closes := ⟨meant, table.owner fd⟩ :: table.closes }

/-- The number changes hands without a trace in the history. -/
def Table.assign (table : Table κ) (fd : Nat) (who : Option κ) : Table κ :=
  { table with owner := Function.update table.owner fd who }

/-- A number that can be opened was free. -/
theorem create_eq_some {table table' : Table κ} {who : κ} {fd : Nat}
    (h : table.create who fd = some table') :
    table.owner fd = none ∧
      table' = { table with
        owner := Function.update table.owner fd (some who), opened := who :: table.opened } := by
  unfold Table.create at h
  split at h
  · rename_i hfree
    exact ⟨hfree, (Option.some.inj h).symm⟩
  · cases h

variable [DecidableEq κ]

/-- The number of calls of `close` that were made for an owner. -/
def Table.closeCount (table : Table κ) (who : κ) : Nat :=
  table.closes.countP fun call => call.meant = who

/-- The claims are true, name no owner twice and account for the history: every `close` hit the
descriptor it was meant for, and whatever was opened for an owner is either claimed or closed. -/
structure Table.Backs (table : Table κ) (claims : List (κ × Nat)) : Prop where
  held : ∀ claim ∈ claims, table.owner claim.2 = some claim.1
  distinct : (claims.map Prod.fst).Nodup
  honest : ∀ call ∈ table.closes, call.hit = some call.meant
  counted : ∀ who,
    table.closeCount who + (claims.map Prod.fst).count who = table.opened.count who

variable {table : Table κ} {claims claims' : List (κ × Nat)} {who : κ} {fd : Nat}

namespace Table.Backs

/-- The order of the claims does not matter. -/
theorem perm (h : table.Backs claims) (hperm : claims.Perm claims') : table.Backs claims' where
  held claim hclaim := h.held claim (hperm.mem_iff.mpr hclaim)
  distinct := (hperm.map Prod.fst).nodup_iff.mp h.distinct
  honest := h.honest
  counted who := (hperm.map Prod.fst).count_eq who ▸ h.counted who

/-- What happens to a number nobody claims does not matter. -/
theorem assign (h : table.Backs claims) (hunclaimed : ∀ claim ∈ claims, claim.2 ≠ fd)
    (value : Option κ) : (table.assign fd value).Backs claims where
  held claim hclaim :=
    (Function.update_of_ne (hunclaimed claim hclaim) _ _).trans (h.held claim hclaim)
  distinct := h.distinct
  honest := h.honest
  counted := h.counted

/-- A free number is not claimed. -/
theorem unclaimed_of_free (h : table.Backs claims) (hfree : table.owner fd = none) :
    ∀ claim ∈ claims, claim.2 ≠ fd := by
  rintro claim hclaim rfl
  rw [h.held claim hclaim] at hfree
  cases hfree

/-- The number of an owner without a claim is not claimed. -/
theorem unclaimed_of_owner (h : table.Backs claims) (howner : table.owner fd = some who)
    (hwho : who ∉ claims.map Prod.fst) : ∀ claim ∈ claims, claim.2 ≠ fd := by
  rintro claim hclaim rfl
  rw [h.held claim hclaim] at howner
  exact hwho (Option.some.inj howner ▸ List.mem_map_of_mem hclaim)

/-- Opening a descriptor for an owner without a claim. -/
theorem create {table' : Table κ} (h : table.Backs claims) (hwho : who ∉ claims.map Prod.fst)
    (hcreate : table.create who fd = some table') : table'.Backs ((who, fd) :: claims) := by
  obtain ⟨hfree, rfl⟩ := create_eq_some hcreate
  refine ⟨?_, List.nodup_cons.mpr ⟨hwho, h.distinct⟩, h.honest, fun other => ?_⟩
  · intro claim hclaim
    rcases List.mem_cons.mp hclaim with rfl | hclaim
    · exact Function.update_self ..
    · exact (h.assign (h.unclaimed_of_free hfree) (some who)).held claim hclaim
  · have hcount := h.counted other
    show table.closeCount other + (who :: claims.map Prod.fst).count other =
      (who :: table.opened).count other
    rw [List.count_cons, List.count_cons]
    omega

/-- Closing a claimed descriptor spends the claim. -/
theorem close (h : table.Backs ((who, fd) :: claims)) : (table.close who fd).Backs claims := by
  have howner : table.owner fd = some who := h.held (who, fd) List.mem_cons_self
  obtain ⟨hwho, hdistinct⟩ := List.nodup_cons.mp h.distinct
  refine ⟨?_, hdistinct, ?_, fun other => ?_⟩
  · intro claim hclaim
    have hne : claim.2 ≠ fd := by
      rintro rfl
      rw [h.held claim (List.mem_cons_of_mem _ hclaim)] at howner
      exact hwho (Option.some.inj howner ▸ List.mem_map_of_mem hclaim)
    exact (Function.update_of_ne hne _ _).trans (h.held claim (List.mem_cons_of_mem _ hclaim))
  · intro call hcall
    rcases List.mem_cons.mp hcall with rfl | hcall
    · exact howner
    · exact h.honest call hcall
  · have hcount := h.counted other
    simp only [closeCount, List.map_cons, List.count_cons, beq_iff_eq] at hcount
    simp only [Table.close, closeCount, List.countP_cons, decide_eq_true_eq]
    omega

/-- The one `close` that was made for an owner closed what was opened for it. -/
theorem closes_eq_singleton (h : table.Backs claims) (hcount : table.closeCount who = 1) :
    (table.closes.filter fun call => call.meant = who) = [⟨who, some who⟩] := by
  rw [closeCount, List.countP_eq_length_filter] at hcount
  obtain ⟨call, hcall⟩ := List.length_eq_one_iff.mp hcount
  obtain ⟨hmem, hmeant⟩ := List.mem_filter.mp (hcall ▸ List.mem_singleton_self call)
  obtain ⟨meant, hit⟩ := call
  obtain rfl : meant = who := of_decide_eq_true hmeant
  obtain rfl : hit = some meant := h.honest _ hmem
  exact hcall

end Table.Backs

end Descriptors
