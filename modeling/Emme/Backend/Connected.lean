import Emme.Lib.Execution
import Emme.Backend.Pool

/-!
# Connections that are connected

`backend_pool_create` does not connect its clients; the only call of `http2_client_connect` is for
connections that have been idle for too long. A run is a list of the sections under a connection's
lock, in any order. `handed_out_connected_iff`: every connection handed out is connected exactly if
none is handed out for the first time before the idle timeout.
-/

namespace Emme.Backend

open Execution Emme.Http2

/-- A section under a connection's lock: the loop body of an acquire that started at `now`, or
the first half of a release. -/
inductive LockedSection where
  | visit (i : Nat) (now : Int) (reconnect : Reconnect)
  | release (i : Nat) (now : Int)
  deriving DecidableEq, Repr

/-- The connections, and the indices of those that have been handed out before. -/
structure Usage where
  conns : List BackendConn
  used : List Nat
  deriving DecidableEq, Repr

/-- The client is connected: its session exists from a call of `http2_client_connect` that
returned 0 to the next `http2_client_init` or `http2_client_cleanup`. -/
def BackendConn.connected (conn : BackendConn) : Bool := conn.client.session

/-- Execute a section. If it hands out a connection, the answer says whether that connection is
connected. -/
def Usage.step (usage : Usage) : LockedSection → Option Bool × Usage
  | .visit i now reconnect =>
      match usage.conns[i]? with
      | none => (none, usage)
      | some conn =>
          let visited := conn.tryAcquire now reconnect
          if visited.2 then
            (some visited.1.connected, ⟨usage.conns.set i visited.1, i :: usage.used⟩)
          else (none, ⟨usage.conns.set i visited.1, usage.used⟩)
  | .release i now =>
      (none, { usage with conns := usage.conns.modify i fun conn => conn.release now })

/-! ## Acquire as a run of sections -/

/-- `backend_pool_acquire`, from connection `i` on with `left` connections to go: the connection
it returns and whether it is connected. -/
def backendPoolAcquire (now : Int) (reconnect : Nat → Reconnect) :
    Nat → Nat → Usage → Option (Nat × Bool) × Usage
  | 0, _, usage => (none, usage)
  | left + 1, i, usage =>
      match usage.step (.visit i now (reconnect i)) with
      | (some connected, usage) => (some (i, connected), usage)
      | (none, usage) => backendPoolAcquire now reconnect left (i + 1) usage

/-- What an acquire does is a run of its visits, and what it returns is the answer of one of
them. -/
theorem backend_pool_acquire_sections (now : Int) (reconnect : Nat → Reconnect) (left i : Nat)
    (usage : Usage) :
    ∃ sections,
      after Usage.step usage sections = (backendPoolAcquire now reconnect left i usage).2 ∧
        ∀ j connected, (backendPoolAcquire now reconnect left i usage).1 = some (j, connected) →
          (LockedSection.visit j now (reconnect j), some connected) ∈
            trace Usage.step usage sections := by
  induction left generalizing i usage with
  | zero => exact ⟨[], rfl, fun j connected h => by cases h⟩
  | succ left ih =>
      rw [backendPoolAcquire]
      split
      · rename_i connected usage' hvisit
        refine ⟨[.visit i now (reconnect i)], congrArg Prod.snd hvisit, fun j handed h => ?_⟩
        cases h
        rw [trace_cons, hvisit]
        exact List.mem_cons_self
      · rename_i usage' hvisit
        obtain ⟨sections, hafter, hanswer⟩ := ih (i + 1) usage'
        refine ⟨.visit i now (reconnect i) :: sections, ?_, fun j connected h => ?_⟩
        · rw [after_cons, hvisit, hafter]
        · rw [trace_cons, hvisit]
          exact List.mem_cons_of_mem _ (hanswer j connected h)

/-! ## Who is connected -/

/-- The condition on a section: a visit that finds an eligible connection which has never been
handed out comes after the idle timeout. -/
def Usage.FirstAfterTimeout (usage : Usage) : LockedSection → Prop
  | .visit i now _ =>
      ∀ conn, usage.conns[i]? = some conn → conn.Eligible → i ∉ usage.used →
        idleTimeoutSec < now - conn.lastUsed
  | .release _ _ => True

/-- Among the connections that can be handed out, the connected ones are those that have been
handed out before. -/
def Usage.Sound (usage : Usage) : Prop :=
  ∀ (i : Nat) (conn : BackendConn), usage.conns[i]? = some conn → conn.health ≠ .unhealthy →
    (conn.connected = true ↔ i ∈ usage.used)

/-- The answer does not hand out an unconnected connection. -/
def AnswersConnected (answer : Option Bool) : Prop := answer ≠ some false

/-- Replacing one connection by one that fits the index list. -/
theorem Usage.Sound.set {usage : Usage} (h : usage.Sound) {i : Nat} {conn : BackendConn}
    {used : List Nat} (hused : ∀ j, j ≠ i → (j ∈ used ↔ j ∈ usage.used))
    (hconn : conn.health ≠ .unhealthy → (conn.connected = true ↔ i ∈ used)) :
    (⟨usage.conns.set i conn, used⟩ : Usage).Sound := by
  intro j other hother hhealth
  by_cases hij : j = i
  · subst hij
    rw [List.getElem?_set_self'] at hother
    obtain ⟨_, _, rfl⟩ := Option.map_eq_some_iff.mp hother
    exact hconn hhealth
  · rw [List.getElem?_set_ne (Ne.symm hij)] at hother
    rw [h j other hother hhealth, hused j hij]

/-- A visit of an existing connection, case by case. -/
theorem visit_sound {usage : Usage} (h : usage.Sound) {i : Nat} {conn : BackendConn}
    (hconn : usage.conns[i]? = some conn) (now : Int) (reconnect : Reconnect) :
    (AnswersConnected (usage.step (.visit i now reconnect)).1 ↔
        usage.FirstAfterTimeout (.visit i now reconnect)) ∧
      (usage.FirstAfterTimeout (.visit i now reconnect) →
        (usage.step (.visit i now reconnect)).2.Sound) := by
  have hfirst : usage.FirstAfterTimeout (.visit i now reconnect) ↔
      (conn.Eligible → i ∉ usage.used → idleTimeoutSec < now - conn.lastUsed) := by
    refine ⟨fun hall => hall conn hconn, fun hone other hother => ?_⟩
    cases hconn.symm.trans hother
    exact hone
  rw [hfirst]
  simp only [Usage.step, hconn]
  rcases try_acquire_cases conn now reconnect with
    ⟨hnot, heq⟩ | ⟨heligible, hexpired, -, heq⟩ | ⟨heligible, hexpired, -, heq⟩ |
      ⟨heligible, hexpired, heq⟩
  · -- not eligible: nothing changes
    rw [heq]
    refine ⟨⟨fun _ heligible => absurd heligible hnot, fun _ h => by cases h⟩, fun _ => ?_⟩
    exact h.set (fun _ _ => Iff.rfl) (h i conn hconn)
  · -- reconnected: handed out with a session
    rw [heq]
    refine ⟨⟨fun _ _ _ => hexpired, fun _ h => by cases h⟩, fun _ => ?_⟩
    exact h.set (fun j hij => by simp [hij]) fun _ => ⟨fun _ => List.mem_cons_self, fun _ => rfl⟩
  · -- reconnecting failed: the connection is unhealthy from now on
    rw [heq]
    refine ⟨⟨fun _ _ _ => hexpired, fun _ h => by cases h⟩, fun _ => ?_⟩
    exact h.set (fun _ _ => Iff.rfl) fun hhealth => absurd rfl hhealth
  · -- handed out as it is
    rw [heq]
    have hconnected := h i conn hconn heligible.2
    refine ⟨⟨fun hanswer _ hunused => ?_, fun hlate hanswer => ?_⟩, fun hlate => ?_⟩
    · cases hsession : conn.connected with
      | false => exact absurd (congrArg some hsession) hanswer
      | true => exact absurd (hconnected.mp hsession) hunused
    · have hsession : conn.connected = false := Option.some.inj hanswer
      have hunused : i ∉ usage.used := fun hused => by
        rw [hconnected.mpr hused] at hsession
        cases hsession
      exact hexpired (hlate heligible hunused)
    · have hused : i ∈ usage.used := by
        by_contra hunused
        exact hexpired (hlate heligible hunused)
      exact h.set (fun j hij => by simp [hij]) fun _ =>
        ⟨fun _ => List.mem_cons_self, fun _ => hconnected.mpr hused⟩

/-- A release changes neither sessions nor health. -/
theorem release_sound {usage : Usage} (h : usage.Sound) (i : Nat) (now : Int) :
    (usage.step (.release i now)).2.Sound := by
  intro j conn hconn hhealth
  rw [Usage.step, List.getElem?_modify] at hconn
  obtain ⟨before, hbefore, rfl⟩ := Option.map_eq_some_iff.mp hconn
  split at hhealth
  · rw [if_pos ‹_›]
    exact h j before hbefore hhealth
  · rw [if_neg ‹_›]
    exact h j before hbefore hhealth

/-- One section: its answer is right exactly if it meets the condition, and then the invariant
is kept. -/
theorem step_sound {usage : Usage} (h : usage.Sound) (locked : LockedSection) :
    (AnswersConnected (usage.step locked).1 ↔ usage.FirstAfterTimeout locked) ∧
      (usage.FirstAfterTimeout locked → (usage.step locked).2.Sound) := by
  cases locked with
  | visit i now reconnect =>
      cases hconn : usage.conns[i]? with
      | none =>
          simp only [Usage.step, Usage.FirstAfterTimeout, hconn]
          exact ⟨⟨fun _ conn hnone => absurd hnone (by simp), fun _ h => by cases h⟩, fun _ => h⟩
      | some conn => exact visit_sound h hconn now reconnect
  | release i now =>
      exact ⟨⟨fun _ => trivial, fun _ h => by cases h⟩, fun _ => release_sound h i now⟩

/-- A run from a sound state: all its answers are right exactly if all its sections meet the
condition. -/
theorem run_connected_iff {usage : Usage} (h : usage.Sound) (sections : List LockedSection) :
    (∀ entry ∈ trace Usage.step usage sections, AnswersConnected entry.2) ↔
      Along Usage.step Usage.FirstAfterTimeout usage sections := by
  induction sections generalizing usage with
  | nil => exact ⟨fun _ => trivial, fun _ entry hentry => absurd hentry List.not_mem_nil⟩
  | cons locked sections ih =>
      obtain ⟨hiff, hkeep⟩ := step_sound h locked
      rw [trace_cons, List.forall_mem_cons, Along, hiff]
      exact and_congr_right fun hfirst => ih (hkeep hfirst)

/-- A fresh pool: nothing is connected and nothing has been handed out. -/
theorem create_sound {poolSize : Int} {clock : Nat → Int} {succeeds : Nat → Bool}
    {pool : BackendPool} (h : backendPoolCreate poolSize clock succeeds = some pool) :
    (⟨pool.conns, []⟩ : Usage).Sound := by
  unfold backendPoolCreate at h
  split at h
  · cases h
  · cases h
    intro i conn hconn _
    rw [List.getElem?_map] at hconn
    obtain ⟨_, _, rfl⟩ := Option.map_eq_some_iff.mp hconn
    exact ⟨fun hsession => absurd hsession Bool.false_ne_true,
      fun hused => absurd hused List.not_mem_nil⟩

/-- **First use.** In a run over a fresh pool, every connection that is handed out is connected
exactly if every visit that finds an eligible connection for the first time comes more than the
idle timeout after that connection was created. -/
theorem handed_out_connected_iff {poolSize : Int} {clock : Nat → Int} {succeeds : Nat → Bool}
    {pool : BackendPool} (hcreate : backendPoolCreate poolSize clock succeeds = some pool)
    (sections : List LockedSection) :
    (∀ entry ∈ trace Usage.step ⟨pool.conns, []⟩ sections, AnswersConnected entry.2) ↔
      Along Usage.step Usage.FirstAfterTimeout ⟨pool.conns, []⟩ sections :=
  run_connected_iff (create_sound hcreate) sections

instance (usage : Usage) (locked : LockedSection) :
    Decidable (usage.FirstAfterTimeout locked) :=
  match locked with
  | .visit i now _ =>
      match h : usage.conns[i]? with
      | none => isTrue fun conn hconn => by cases h.symm.trans hconn
      | some conn =>
          decidable_of_iff
            (conn.Eligible → i ∉ usage.used → idleTimeoutSec < now - conn.lastUsed)
            ⟨fun hone other hother => by cases h.symm.trans hother; exact hone,
              fun hall => hall conn h⟩
  | .release _ _ => isTrue trivial

/-- The first acquire comes after 61 seconds, the second soon after the release. -/
def patientSections : List LockedSection :=
  [.visit 0 61 ⟨true, true⟩, .release 0 70, .visit 0 80 ⟨true, true⟩]

/-- Sections in which a connection is used again only while its backend keeps it open. -/
theorem patient_sections_connected :
    ∃ pool, backendPoolCreate 1 (fun _ => 0) (fun _ => true) = some pool ∧
      ∀ entry ∈ trace Usage.step ⟨pool.conns, []⟩ patientSections, AnswersConnected entry.2 := by
  have hcreate : backendPoolCreate 1 (fun _ => 0) (fun _ => true) =
      some ⟨[createBackendConnection 0], 0, 1⟩ := rfl
  have hlate : Along Usage.step Usage.FirstAfterTimeout ⟨[createBackendConnection 0], []⟩
      patientSections := by decide +kernel
  exact ⟨_, hcreate, (handed_out_connected_iff hcreate patientSections).mpr hlate⟩

/-- An acquire right after the pool was created returns a connection that was never connected. -/
theorem first_acquire_not_connected :
    ∃ pool, backendPoolCreate 1 (fun _ => 0) (fun _ => true) = some pool ∧
      (backendPoolAcquire 0 (fun _ => ⟨true, true⟩) 1 0 ⟨pool.conns, []⟩).1 = some (0, false) ∧
      ¬ ∀ entry ∈ trace Usage.step ⟨pool.conns, []⟩ [.visit 0 0 ⟨true, true⟩],
        AnswersConnected entry.2 := by
  refine ⟨_, rfl, rfl, fun hall => ?_⟩
  exact hall (.visit 0 0 ⟨true, true⟩, some false) List.mem_cons_self rfl

end Emme.Backend
