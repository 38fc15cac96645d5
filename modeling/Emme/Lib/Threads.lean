import Mathlib.Algebra.GroupWithZero.Nat
import Mathlib.Data.List.Basic
import Mathlib.Data.List.Perm.Subperm
import Mathlib.Tactic.Common

/-!
# Threads and the resources they hold

The local states of any number of threads as a list. A thread moves by replacing its entry; a
thread is created by appending one. `count_set_add` is the bookkeeping of a move for the number
of threads in some phase, `Exclusive` says that no two threads hold the same resource, and
`inventory` lists what all of them hold together.
-/

namespace Threads

variable {τ ρ : Type*}

variable {threads : List τ} {c : Nat} {old new thread : τ} {phase : τ → Bool} {places : List Nat}

/-- A move takes a thread out of the phase it was in and puts it into the one it reaches. -/
theorem count_set_add (phase : τ → Bool) (h : threads[c]? = some old) (new : τ) :
    (threads.set c new).countP phase + (phase old).toNat =
      threads.countP phase + (phase new).toNat := by
  obtain ⟨hlt, rfl⟩ := List.getElem?_eq_some_iff.mp h
  rw [List.countP_set hlt]
  cases hold : phase threads[c] with
  | false => cases phase new <;> simp
  | true =>
      have hpos : 0 < threads.countP phase :=
        List.countP_pos_iff.mpr ⟨threads[c], List.getElem_mem hlt, hold⟩
      cases phase new with
      | false =>
          simp
          omega
      | true =>
          simp
          omega

/-- Phases that are counted together one by one are counted together in all. -/
theorem count_add_count {p q r s : τ → Bool}
    (h : ∀ thread, (p thread).toNat + (q thread).toNat = (r thread).toNat + (s thread).toNat)
    (threads : List τ) :
    threads.countP p + threads.countP q = threads.countP r + threads.countP s := by
  induction threads with
  | nil => rfl
  | cons thread threads ih =>
      have hthread := h thread
      have hcons (phase : τ → Bool) :
          (thread :: threads).countP phase = threads.countP phase + (phase thread).toNat := by
        rw [List.countP_cons]
        cases phase thread <;> rfl
      rw [hcons, hcons, hcons, hcons]
      omega

/-- Different threads that are in some phase are no more than all threads in it. -/
theorem length_le_count (hnodup : places.Nodup)
    (hphase : ∀ c ∈ places, ∃ thread, threads[c]? = some thread ∧ phase thread = true) :
    places.length ≤ threads.countP phase := by
  have hsub : places ⊆ threads.findIdxs phase := by
    intro c hc
    obtain ⟨thread, hthread, hp⟩ := hphase c hc
    obtain ⟨hlt, rfl⟩ := List.getElem?_eq_some_iff.mp hthread
    exact List.mem_findIdxs_iff_exists_getElem_pos.mpr ⟨hlt, hp⟩
  calc places.length ≤ (threads.findIdxs phase).length :=
        (List.subperm_of_subset hnodup hsub).length_le
    _ = threads.countP phase := List.length_findIdxs

/-- A thread that stays in or out of a phase leaves the places of the phase alone. -/
theorem places_set_same (start : Nat) (h : threads[c]? = some old) (hnew : phase new = phase old) :
    (threads.set c new).findIdxs phase start = threads.findIdxs phase start := by
  induction threads generalizing c start with
  | nil => rfl
  | cons thread threads ih =>
      cases c with
      | zero =>
          obtain rfl : thread = old := Option.some.inj h
          simp only [List.set_cons_zero, List.findIdxs_cons, hnew]
      | succ c =>
          have hrest := ih (start + 1) h
          simp only [List.set_cons_succ, List.findIdxs_cons, hrest]

/-- When the first thread in a phase leaves it, the others are still there. -/
theorem places_set_first {start : Nat} (h : threads.findIdxs phase start = (start + c) :: places)
    (hnew : phase new = false) : (threads.set c new).findIdxs phase start = places := by
  induction threads generalizing c start with
  | nil => cases h
  | cons thread threads ih =>
      rw [List.findIdxs_cons] at h
      cases hphase : phase thread with
      | true =>
          rw [if_pos hphase, List.cons.injEq] at h
          obtain rfl : c = 0 := by omega
          rw [List.set_cons_zero, List.findIdxs_cons, hnew]
          exact h.2
      | false =>
          rw [if_neg (by simp [hphase])] at h
          have hstart : start + 1 ≤ start + c :=
            List.ge_of_mem_findIdxs _ (h ▸ List.mem_cons_self)
          obtain ⟨n, rfl⟩ : ∃ n, c = n + 1 := ⟨c - 1, by omega⟩
          rw [show start + (n + 1) = start + 1 + n by omega] at h
          rw [List.set_cons_succ, List.findIdxs_cons, hphase]
          exact ih h

/-- The threads in some phase that are not at one of the places. -/
def elsewhere (phase : τ → Bool) (threads : List τ) (places : List Nat) : List Nat :=
  (threads.findIdxs phase).filter (· ∉ places)

/-- Such a thread is in the phase and at none of the places. -/
theorem mem_elsewhere :
    c ∈ elsewhere phase threads places ↔
      (∃ thread, threads[c]? = some thread ∧ phase thread = true) ∧ c ∉ places := by
  simp only [elsewhere, List.mem_filter, List.mem_findIdxs_iff_exists_getElem_pos,
    decide_eq_true_eq, List.getElem?_eq_some_iff]
  refine and_congr_left fun _ => ⟨?_, ?_⟩
  · rintro ⟨hlt, hp⟩
    exact ⟨_, ⟨hlt, rfl⟩, hp⟩
  · rintro ⟨_, ⟨hlt, rfl⟩, hp⟩
    exact ⟨hlt, hp⟩

/-- The threads in a phase are elsewhere or at one of the places. -/
theorem count_le_elsewhere_add (phase : τ → Bool) (threads : List τ) (places : List Nat) :
    threads.countP phase ≤ (elsewhere phase threads places).length + places.length := by
  have hsplit := (threads.findIdxs phase).length_eq_length_filter_add (· ∈ places)
  have hsub : ((threads.findIdxs phase).filter (· ∈ places)) ⊆ places := fun c hc =>
    of_decide_eq_true (List.mem_filter.mp hc).2
  have hle := (List.subperm_of_subset (List.nodup_findIdxs.filter _) hsub).length_le
  have hrest : (threads.findIdxs phase).filter (fun c => !decide (c ∈ places)) =
      elsewhere phase threads places := by
    simp [elsewhere]
  rw [List.length_findIdxs, hrest] at hsplit
  omega

/-- A thread that gets nearer to its end brings all of them nearer. -/
theorem sum_set_lt (distance : τ → Nat) {threads : List τ} {c : Nat} {old new : τ}
    (h : threads[c]? = some old) (hlt : distance new < distance old) :
    ((threads.set c new).map distance).sum < (threads.map distance).sum := by
  induction threads generalizing c with
  | nil => cases h
  | cons thread threads ih =>
      cases c with
      | zero =>
          obtain rfl : thread = old := Option.some.inj h
          simp only [List.set_cons_zero, List.map_cons, List.sum_cons]
          omega
      | succ c =>
          have hrest := ih h
          simp only [List.set_cons_succ, List.map_cons, List.sum_cons]
          omega

/-- What a thread's entry is after a move of some thread. -/
theorem get_set {c' : Nat} (h : (threads.set c new)[c']? = some thread) :
    (c' = c ∧ thread = new) ∨ (c' ≠ c ∧ threads[c']? = some thread) := by
  by_cases hc : c' = c
  · subst hc
    rw [List.getElem?_set_self'] at h
    obtain ⟨_, _, rfl⟩ := Option.map_eq_some_iff.mp h
    exact Or.inl ⟨rfl, rfl⟩
  · rw [List.getElem?_set_ne (Ne.symm hc)] at h
    exact Or.inr ⟨hc, h⟩

/-- Writing back what is there changes nothing. -/
theorem set_get_self (h : threads[c]? = some thread) : threads.set c thread = threads := by
  obtain ⟨hlt, rfl⟩ := List.getElem?_eq_some_iff.mp h
  exact List.set_getElem_self hlt

/-- What a thread's entry is after a thread was created. -/
theorem get_concat (h : (threads ++ [new])[c]? = some thread) :
    (c = threads.length ∧ thread = new) ∨ threads[c]? = some thread := by
  rcases Nat.lt_or_ge c threads.length with hlt | hge
  · rw [List.getElem?_append_left hlt] at h
    exact Or.inr h
  · rw [List.getElem?_append_right hge] at h
    obtain ⟨hlt, hnew⟩ := List.getElem?_eq_some_iff.mp h
    simp only [List.length_singleton, Nat.lt_one_iff] at hlt
    simp only [hlt, List.getElem_cons_zero] at hnew
    exact Or.inl ⟨by omega, hnew.symm⟩

/-- No two threads hold the same resource. -/
def Exclusive (holds : τ → Option ρ) (threads : List τ) : Prop :=
  ∀ (c c' : Nat) (thread thread' : τ) (resource : ρ),
    threads[c]? = some thread → threads[c']? = some thread' →
      holds thread = some resource → holds thread' = some resource → c = c'

variable {holds : τ → Option ρ} {threads : List τ}

/-- Without threads nothing is held twice. -/
theorem Exclusive.nil : Exclusive holds ([] : List τ) := by
  intro c c' thread thread' resource h
  cases h

/-- A move after which the thread holds nothing that it did not hold. -/
theorem Exclusive.set (h : Exclusive holds threads) (hc : threads[c]? = some old)
    (hkeep : ∀ resource, holds new = some resource → holds old = some resource) :
    Exclusive holds (threads.set c new) := by
  intro a a' thread thread' resource ha ha' hold hold'
  rcases get_set ha with ⟨rfl, rfl⟩ | ⟨-, hthread⟩
  · rcases get_set ha' with ⟨rfl, rfl⟩ | ⟨-, hthread'⟩
    · rfl
    · exact h _ _ _ _ _ hc hthread' (hkeep _ hold) hold'
  · rcases get_set ha' with ⟨rfl, rfl⟩ | ⟨-, hthread'⟩
    · exact h _ _ _ _ _ hthread hc hold (hkeep _ hold')
    · exact h _ _ _ _ _ hthread hthread' hold hold'

/-- A move by which the thread takes a resource that nobody holds. -/
theorem Exclusive.take (h : Exclusive holds threads) {taken : ρ} (htaken : holds new = some taken)
    (hfree : ∀ (c' : Nat) (thread : τ), threads[c']? = some thread →
      holds thread ≠ some taken) : Exclusive holds (threads.set c new) := by
  intro a a' thread thread' resource ha ha' hold hold'
  rcases get_set ha with ⟨rfl, rfl⟩ | ⟨-, hthread⟩
  · obtain rfl : taken = resource := Option.some.inj (htaken.symm.trans hold)
    rcases get_set ha' with ⟨rfl, rfl⟩ | ⟨-, hthread'⟩
    · rfl
    · exact absurd hold' (hfree _ _ hthread')
  · rcases get_set ha' with ⟨rfl, rfl⟩ | ⟨-, hthread'⟩
    · obtain rfl : taken = resource := Option.some.inj (htaken.symm.trans hold')
      exact absurd hold (hfree _ _ hthread)
    · exact h _ _ _ _ _ hthread hthread' hold hold'

/-- A new thread holds nothing. -/
theorem Exclusive.concat (h : Exclusive holds threads) (hnew : holds new = none) :
    Exclusive holds (threads ++ [new]) := by
  intro a a' thread thread' resource ha ha' hold hold'
  rcases get_concat ha with ⟨rfl, rfl⟩ | ha
  · cases hnew.symm.trans hold
  · rcases get_concat ha' with ⟨rfl, rfl⟩ | ha'
    · cases hnew.symm.trans hold'
    · exact h _ _ _ _ _ ha ha' hold hold'

/-! ## What the threads hold together -/

/-- What all threads hold, where `holdings c thread` is what the thread at `c` holds. -/
def inventory (holdings : Nat → τ → List ρ) (threads : List τ) : List ρ :=
  (threads.mapIdx holdings).flatten

variable {holdings : Nat → τ → List ρ}

/-- An item is in the inventory if some thread holds it. -/
theorem mem_inventory {item : ρ} :
    item ∈ inventory holdings threads ↔
      ∃ (c : Nat) (thread : τ), threads[c]? = some thread ∧ item ∈ holdings c thread := by
  constructor
  · intro hitem
    obtain ⟨items, hitems, hitem⟩ := List.mem_flatten.mp hitem
    obtain ⟨c, hlt, rfl⟩ := List.mem_mapIdx.mp hitems
    exact ⟨c, _, List.getElem?_eq_getElem hlt, hitem⟩
  · rintro ⟨c, thread, hc, hitem⟩
    obtain ⟨hlt, rfl⟩ := List.getElem?_eq_some_iff.mp hc
    exact List.mem_flatten.mpr ⟨_, List.mem_mapIdx.mpr ⟨c, hlt, rfl⟩, hitem⟩

/-- A new thread adds what it holds. -/
theorem inventory_concat (threads : List τ) (new : τ) :
    inventory holdings (threads ++ [new]) =
      inventory holdings threads ++ holdings threads.length new := by
  simp [inventory, List.mapIdx_append]

/-- Threads that hold one item in some phase and nothing otherwise hold as many items as threads
are in the phase. -/
theorem length_inventory (phase : τ → Bool) (item : τ → ρ) (threads : List τ) :
    (inventory (fun _ thread => if phase thread then [item thread] else []) threads).length =
      threads.countP phase := by
  induction threads with
  | nil => rfl
  | cons thread threads ih =>
      simp only [inventory, List.mapIdx_cons, List.flatten_cons, List.length_append] at ih ⊢
      rw [ih, List.countP_cons]
      cases phase thread with
      | false => simp
      | true => simp [Nat.add_comm]

/-- A move exchanges what the thread held for what it holds now; `front` and `back` are held by
others. -/
theorem inventory_set_perm {c : Nat} {old : τ} (h : threads[c]? = some old)
    (front back : List ρ) :
    ∃ rest, (front ++ inventory holdings threads ++ back).Perm (holdings c old ++ rest) ∧
      ∀ new, (front ++ inventory holdings (threads.set c new) ++ back).Perm
        (holdings c new ++ rest) := by
  obtain ⟨hlt, rfl⟩ := List.getElem?_eq_some_iff.mp h
  have hnew (new : τ) : (front ++ inventory holdings (threads.set c new) ++ back).Perm
      (holdings c new ++ (front ++ (((threads.mapIdx holdings).take c).flatten ++
        ((threads.mapIdx holdings).drop (c + 1)).flatten) ++ back)) := by
    have hlt' : c < (threads.mapIdx holdings).length := by simpa using hlt
    rw [inventory, List.mapIdx_set, List.set_eq_take_append_cons_drop, if_pos hlt',
      List.flatten_append, List.flatten_cons, ← List.append_assoc (holdings c new)]
    refine List.Perm.append_right back ?_
    exact ((List.perm_append_comm_assoc _ _ _).append_left front).trans
      (List.perm_append_comm_assoc _ _ _)
  refine ⟨_, ?_, hnew⟩
  have hold := hnew threads[c]
  rwa [List.set_getElem_self hlt] at hold

/-- A move after which the thread holds what it held. -/
theorem inventory_kept (h : threads[c]? = some old) (hnew : holdings c new = holdings c old)
    (front : List ρ) :
    (front ++ inventory holdings threads).Perm
      (front ++ inventory holdings (threads.set c new)) := by
  obtain ⟨rest, hbefore, hafter⟩ := @inventory_set_perm _ _ _ holdings _ _ h front []
  have hafter := hafter new
  rw [List.append_nil] at hbefore hafter
  exact hbefore.trans (hnew ▸ hafter.symm)

/-- A move by which the thread drops the one item it held. -/
theorem inventory_dropped {item : ρ} (h : threads[c]? = some old) (hold : holdings c old = [item])
    (hnew : holdings c new = []) (front : List ρ) :
    (front ++ inventory holdings threads).Perm
      (item :: (front ++ inventory holdings (threads.set c new))) := by
  obtain ⟨rest, hbefore, hafter⟩ := @inventory_set_perm _ _ _ holdings _ _ h front []
  have hafter := hafter new
  rw [List.append_nil, hold] at hbefore
  rw [List.append_nil, hnew] at hafter
  exact hbefore.trans (hafter.symm.cons item)

end Threads
