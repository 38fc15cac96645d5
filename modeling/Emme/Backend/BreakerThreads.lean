import Emme.Lib.Threads
import Emme.Backend.CircuitBreaker

/-!
# The circuit breaker under concurrent calls

The fields of the breaker are atomics and no lock is held: a step of the machine is one load, store
or fetch-add of one thread. A call that nobody interferes with does what the function of
`Emme.Backend.CircuitBreaker` does (`call_alone`).
-/

namespace Emme.Backend

open Execution Threads

/-! ## The machine -/

/-- The three calls. -/
inductive BreakerOp where
  | allowRequest
  | recordSuccess
  | recordFailure
  deriving DecidableEq, Repr

/-- The call with its clock reading. -/
def BreakerOp.at (now : Int) : BreakerOp → BreakerCall
  | .allowRequest => .allowRequest now
  | .recordSuccess => .recordSuccess now
  | .recordFailure => .recordFailure now

/-- Where a thread is: the atomic operation it does next, with the local variables it still
needs. `seen` is the state that `record_failure` has loaded. -/
inductive BreakerPoint where
  | idle
  | loadState (op : BreakerOp)
  | allowLoadFailureTime
  | allowStoreState (now : Int)
  | allowStoreChange (now : Int)
  | successAdd
  | successStoreState
  | successClearFailures
  | successClearSuccesses
  | successStoreChange
  | successCountClose
  | successResetFailures
  | failureAdd (seen : BreakerState) (now : Int)
  | failureStoreTime (seen : BreakerState) (now : Int) (failures : Int32)
  | failureStoreState (seen : BreakerState) (now : Int)
  | failureStoreChange (now : Int)
  | failureCountOpen
  deriving DecidableEq, Repr

/-- The next atomic operation of a thread; `now` is what the clock reads if the thread reads it
there. -/
def BreakerPoint.advance (breaker : CircuitBreaker) (now : Int) :
    BreakerPoint → CircuitBreaker × BreakerPoint
  | .idle => (breaker, .idle)
  | .loadState .allowRequest =>
      (breaker, if breaker.state = .opened then .allowLoadFailureTime else .idle)
  | .allowLoadFailureTime =>
      (breaker,
        if now - breaker.lastFailureTime ≥ breaker.config.recoveryTimeoutSeconds.toInt then
          .allowStoreState now
        else .idle)
  | .allowStoreState now => ({ breaker with state := .halfOpen }, .allowStoreChange now)
  | .allowStoreChange now => ({ breaker with lastStateChange := now }, .idle)
  | .loadState .recordSuccess =>
      (breaker,
        match breaker.state with
        | .halfOpen => .successAdd
        | .closed => .successResetFailures
        | .opened => .idle)
  | .successAdd =>
      ({ breaker with successCount := breaker.successCount + 1 },
        if breaker.successCount + 1 ≥ 2 then .successStoreState else .idle)
  | .successStoreState => ({ breaker with state := .closed }, .successClearFailures)
  | .successClearFailures => ({ breaker with failureCount := 0 }, .successClearSuccesses)
  | .successClearSuccesses => ({ breaker with successCount := 0 }, .successStoreChange)
  | .successStoreChange => ({ breaker with lastStateChange := now }, .successCountClose)
  | .successCountClose => ({ breaker with totalCloses := breaker.totalCloses + 1 }, .idle)
  | .successResetFailures => ({ breaker with failureCount := 0 }, .idle)
  | .loadState .recordFailure =>
      (breaker,
        if breaker.state = .closed ∨ breaker.state = .halfOpen then .failureAdd breaker.state now
        else .idle)
  | .failureAdd seen now =>
      ({ breaker with failureCount := breaker.failureCount + 1 },
        .failureStoreTime seen now (breaker.failureCount + 1))
  | .failureStoreTime seen now failures =>
      ({ breaker with lastFailureTime := now },
        if seen = .halfOpen ∨ failures ≥ breaker.config.failureThreshold then
          .failureStoreState seen now
        else .idle)
  | .failureStoreState _ now => ({ breaker with state := .opened }, .failureStoreChange now)
  | .failureStoreChange now => ({ breaker with lastStateChange := now }, .failureCountOpen)
  | .failureCountOpen => ({ breaker with totalOpens := breaker.totalOpens + 1 }, .idle)

/-- One breaker, its threads, and the changes of its state so far, the newest first. -/
structure BreakerSystem where
  breaker : CircuitBreaker
  threads : List BreakerPoint
  changes : List (BreakerState × BreakerState)
  deriving DecidableEq, Repr

/-- A thread enters a call, or does its next atomic operation. -/
inductive BreakerLabel where
  | call (thread : Nat) (op : BreakerOp)
  | operate (thread : Nat) (now : Int)
  deriving DecidableEq, Repr

/-- The changes after a step from one state to another. -/
def logChange (before after : BreakerState) (changes : List (BreakerState × BreakerState)) :
    List (BreakerState × BreakerState) :=
  if before = after then changes else (before, after) :: changes

/-- One step of the system. A call on a pool without a breaker returns at once. -/
def breakerNext (system : BreakerSystem) : BreakerLabel → Option BreakerSystem
  | .call thread op =>
      match system.threads[thread]? with
      | some .idle =>
          some { system with
            threads := system.threads.set thread
              (if system.breaker.enabled then .loadState op else .idle) }
      | _ => none
  | .operate thread now =>
      match system.threads[thread]? with
      | none | some .idle => none
      | some point =>
          let (breaker, following) := point.advance system.breaker now
          some
            { breaker
              threads := system.threads.set thread following
              changes := logChange system.breaker.state breaker.state system.changes }

/-- The breaker just initialised and some threads that have not called it yet. -/
def BreakerSystem.fresh (breaker : CircuitBreaker) (threads : Nat) : BreakerSystem where
  breaker
  threads := List.replicate threads .idle
  changes := []

/-- No call is in progress. -/
def BreakerSystem.Quiescent (system : BreakerSystem) : Prop :=
  ∀ point ∈ system.threads, point = .idle

instance (system : BreakerSystem) : Decidable system.Quiescent :=
  inferInstanceAs (Decidable (∀ point ∈ system.threads, point = .idle))

/-- The changes of state that the breaker is meant to make. -/
def legalChanges : List (BreakerState × BreakerState) :=
  [(.closed, .opened), (.opened, .halfOpen), (.halfOpen, .closed), (.halfOpen, .opened)]

/-- The number of changes into OPEN. -/
def opensMade (changes : List (BreakerState × BreakerState)) : Nat :=
  changes.countP fun change => change.2 = .opened

/-- Every change was a legal one, and once no call is in progress `total_opens` is the number of
changes into OPEN. -/
def BreakerSystem.Faithful (system : BreakerSystem) : Prop :=
  (∀ change ∈ system.changes, change ∈ legalChanges) ∧
    (system.Quiescent → system.breaker.totalOpens = opensMade system.changes)

instance (system : BreakerSystem) : Decidable system.Faithful :=
  inferInstanceAs (Decidable (_ ∧ (_ → _)))

/-- The thread is about to store a state, and this is the state its call has loaded. -/
def BreakerPoint.storesOver : BreakerPoint → Option BreakerState
  | .allowStoreState _ => some .opened
  | .successStoreState => some .halfOpen
  | .failureStoreState seen _ => some seen
  | _ => none

/-- A step that stores a state finds the state that its call has loaded. -/
def StoresOverLoaded (system : BreakerSystem) : BreakerLabel → Prop
  | .call _ _ => True
  | .operate thread _ =>
      ∀ seen ∈ system.threads[thread]?.bind BreakerPoint.storesOver, system.breaker.state = seen

instance (system : BreakerSystem) : (label : BreakerLabel) →
    Decidable (StoresOverLoaded system label)
  | .call _ _ => inferInstanceAs (Decidable True)
  | .operate _ _ => inferInstanceAs (Decidable (∀ seen ∈ _, system.breaker.state = seen))

/-! ## What a step can do -/

/-- The thread has stored OPEN and not yet counted it. -/
def BreakerPoint.openStored : BreakerPoint → Bool
  | .failureStoreChange _ | .failureCountOpen => true
  | _ => false

/-- `record_failure` goes on only from CLOSED and HALF_OPEN. -/
def BreakerPoint.Coherent : BreakerPoint → Prop
  | .failureAdd seen _ | .failureStoreTime seen _ _ | .failureStoreState seen _ => seen ≠ .opened
  | _ => True

/-- What one atomic operation does if a state is stored over the one that was loaded: the state
changes legally or not at all, and a change into OPEN is counted in `total_opens` already or belongs
to a thread that is about to count it. -/
theorem advance_effect {breaker breaker' : CircuitBreaker} {point point' : BreakerPoint}
    {now : Int} (hcoherent : point.Coherent)
    (hloaded : ∀ seen ∈ point.storesOver, breaker.state = seen)
    (hadvance : point.advance breaker now = (breaker', point')) :
    point'.Coherent ∧
      ((breaker.state = breaker'.state ∧
          breaker'.totalOpens + point'.openStored.toNat =
            breaker.totalOpens + point.openStored.toNat) ∨
        (breaker.state ≠ breaker'.state ∧ (breaker.state, breaker'.state) ∈ legalChanges ∧
          breaker'.totalOpens + point'.openStored.toNat =
            breaker.totalOpens + point.openStored.toNat +
              (decide (breaker'.state = .opened)).toNat)) := by
  cases point with
  | allowStoreState _ | successStoreState =>
      cases hadvance
      have hstate := hloaded _ rfl
      simp [BreakerPoint.Coherent, BreakerPoint.openStored, hstate, legalChanges]
  | failureStoreState seen _ =>
      cases hadvance
      have hstate := hloaded _ rfl
      simp only [BreakerPoint.Coherent] at hcoherent
      cases seen <;>
        simp_all [BreakerPoint.Coherent, BreakerPoint.openStored, legalChanges]
  | loadState op =>
      cases op <;> cases hadvance <;> refine ⟨?_, Or.inl ⟨rfl, ?_⟩⟩ <;> split <;>
        grind [BreakerPoint.Coherent, BreakerPoint.openStored]
  | allowLoadFailureTime | successAdd | failureStoreTime =>
      cases hadvance
      refine ⟨?_, Or.inl ⟨rfl, ?_⟩⟩ <;> split <;>
        simp_all [BreakerPoint.Coherent, BreakerPoint.openStored]
  | failureAdd seen _ =>
      cases hadvance
      exact ⟨hcoherent, Or.inl ⟨rfl, rfl⟩⟩
  | _ =>
      cases hadvance
      exact ⟨trivial, Or.inl ⟨rfl, rfl⟩⟩

/-- The changes are legal, and each change into OPEN is counted or about to be. -/
structure OpensAccounted (system : BreakerSystem) : Prop where
  coherent : ∀ point ∈ system.threads, point.Coherent
  legal : ∀ change ∈ system.changes, change ∈ legalChanges
  counted : system.breaker.totalOpens + system.threads.countP BreakerPoint.openStored =
    opensMade system.changes

/-- A step of the machine, as the operation of one thread. -/
theorem breaker_next_operate {system following : BreakerSystem} {thread : Nat} {now : Int}
    (hnext : breakerNext system (.operate thread now) = some following) :
    ∃ point breaker' point', system.threads[thread]? = some point ∧
      point.advance system.breaker now = (breaker', point') ∧
      following =
        { breaker := breaker'
          threads := system.threads.set thread point'
          changes := logChange system.breaker.state breaker'.state system.changes } := by
  simp only [breakerNext] at hnext
  split at hnext
  · cases hnext
  · cases hnext
  · next point _ hpoint =>
      exact ⟨point, _, _, hpoint, rfl, (Option.some.inj hnext).symm⟩

/-- Every step that stores a state over the one its call has loaded keeps the account. -/
theorem OpensAccounted.step {system following : BreakerSystem} {label : BreakerLabel}
    (haccount : OpensAccounted system) (hloaded : StoresOverLoaded system label)
    (hnext : breakerNext system label = some following) : OpensAccounted following := by
  obtain ⟨hcoherent, hlegal, hcounted⟩ := haccount
  cases label with
  | call thread op =>
      simp only [breakerNext] at hnext
      split at hnext
      next hidle =>
        cases hnext
        have hmoved := count_set_add BreakerPoint.openStored hidle
          (if system.breaker.enabled then .loadState op else .idle)
        refine ⟨fun point hpoint => ?_, hlegal, ?_⟩
        · rcases List.mem_or_eq_of_mem_set hpoint with hpoint | rfl
          · exact hcoherent point hpoint
          · split <;> trivial
        · have hnone : BreakerPoint.openStored
              (if system.breaker.enabled then .loadState op else .idle) = false := by
            split <;> rfl
          rw [hnone] at hmoved
          have hkept : (system.threads.set thread _).countP BreakerPoint.openStored =
            system.threads.countP BreakerPoint.openStored := hmoved
          rw [hkept, hcounted]
      next => cases hnext
  | operate thread now =>
      obtain ⟨point, breaker', point', hpoint, hadvance, rfl⟩ := breaker_next_operate hnext
      have hstored : ∀ seen ∈ point.storesOver, system.breaker.state = seen := by
        simpa [StoresOverLoaded, hpoint] using hloaded
      obtain ⟨hcoherent', heffect⟩ :=
        advance_effect (hcoherent point (List.mem_of_getElem? hpoint)) hstored hadvance
      have hmoved := count_set_add BreakerPoint.openStored hpoint point'
      have hall : ∀ other ∈ system.threads.set thread point', other.Coherent := by
        intro other hother
        rcases List.mem_or_eq_of_mem_set hother with hother | rfl
        · exact hcoherent other hother
        · exact hcoherent'
      rcases heffect with ⟨hsame, htotal⟩ | ⟨hchanged, hchange, htotal⟩
      · refine ⟨hall, ?_, ?_⟩
        · simpa [logChange, hsame] using hlegal
        · simp only [logChange, if_pos hsame]
          omega
      · refine ⟨hall, ?_, ?_⟩
        · simp only [logChange, if_neg hchanged]
          exact List.forall_mem_cons.mpr ⟨hchange, hlegal⟩
        · simp only [logChange, if_neg hchanged, opensMade, List.countP_cons] at hcounted ⊢
          by_cases hopened : breaker'.state = .opened
          · simp only [hopened, decide_true, Bool.toNat_true, if_true] at htotal ⊢
            omega
          · simp only [hopened, decide_false, Bool.toNat_false] at htotal ⊢
            simp only [Bool.false_eq_true, if_false]
            omega

/-- Whatever the number of threads and the interleaving, if every store of a state finds the
state that its call has loaded, then all changes of state are legal ones and, once no call is in
progress, `total_opens` is the number of changes into OPEN. -/
theorem breaker_faithful (config : CircuitBreakerConfig) (created : Int)
    (breaker : CircuitBreaker) (hinit : initCircuitBreaker config created = some breaker)
    (threads : Nat) (labels : List BreakerLabel) (final : BreakerSystem)
    (hstores : Throughout breakerNext StoresOverLoaded (.fresh breaker threads) labels)
    (hrun : run breakerNext (.fresh breaker threads) labels = some final) : final.Faithful := by
  have hstart : OpensAccounted (.fresh breaker threads) := by
    obtain ⟨-, hfresh⟩ := Option.ite_none_right_eq_some.mp hinit
    cases hfresh
    refine ⟨fun point hpoint => ?_, nofun, ?_⟩
    · rw [List.eq_of_mem_replicate hpoint]
      trivial
    · simp [BreakerSystem.fresh, BreakerPoint.openStored, List.countP_replicate, opensMade]
  have haccount : OpensAccounted final :=
    run_invariant (fun _ _ _ hinv hadmitted hnext => hinv.step hadmitted hnext) hstart hstores hrun
  refine ⟨haccount.legal, fun hquiescent => ?_⟩
  have hnone : final.threads.countP BreakerPoint.openStored = 0 := by
    rw [List.countP_eq_zero]
    intro point hpoint
    rw [hquiescent point hpoint]
    decide
  have hcounted := haccount.counted
  omega

/-- The breaker just initialised with threshold 1 and recovery time 30. -/
def touchyBreaker : CircuitBreaker where
  state := .closed
  failureCount := 0
  successCount := 0
  lastFailureTime := 0
  lastStateChange := 5
  totalOpens := 0
  totalCloses := 0
  config := ⟨true, 1, 30⟩
  enabled := true

/-- A failure is recorded while another thread's request is on its way into the call. -/
theorem breaker_faithful_two_threads :
    ∃ final, run breakerNext (.fresh touchyBreaker 2)
        (.call 0 .recordFailure :: .call 1 .allowRequest ::
          List.replicate 6 (.operate 0 10) ++ List.replicate 4 (.operate 1 40)) = some final ∧
      final.breaker.state = .halfOpen ∧ final.Faithful :=
  ⟨_, rfl, by decide, breaker_faithful ⟨true, 1, 30⟩ 5 touchyBreaker rfl 2
    (.call 0 .recordFailure :: .call 1 .allowRequest ::
      List.replicate 6 (.operate 0 10) ++ List.replicate 4 (.operate 1 40)) _
    (by decide +kernel) rfl⟩

/-- Two threads that record a failure at the same time both store OPEN and both count it. And a
thread about to close the breaker closes it although another thread's failure has opened it in
between. -/
theorem breaker_unfaithful :
    (∃ final, run breakerNext (.fresh touchyBreaker 2)
        (.call 0 .recordFailure :: .call 1 .recordFailure :: .operate 0 10 :: .operate 1 10 ::
          List.replicate 5 (.operate 0 10) ++ List.replicate 5 (.operate 1 10)) = some final ∧
      final.Quiescent ∧ final.breaker.totalOpens = 2 ∧ opensMade final.changes = 1 ∧
      ¬ final.Faithful) ∧
    ∃ final, run breakerNext (.fresh touchyBreaker 2)
        (BreakerLabel.call 0 .recordFailure :: List.replicate 6 (BreakerLabel.operate 0 10) ++
          BreakerLabel.call 0 .allowRequest :: List.replicate 4 (BreakerLabel.operate 0 40) ++
          BreakerLabel.call 0 .recordSuccess :: List.replicate 2 (BreakerLabel.operate 0 41) ++
          BreakerLabel.call 0 .recordSuccess :: List.replicate 2 (BreakerLabel.operate 0 42) ++
          BreakerLabel.call 1 .recordFailure :: List.replicate 6 (BreakerLabel.operate 1 43) ++
          [BreakerLabel.operate 0 44]) = some final ∧
      (.opened, .closed) ∈ final.changes ∧ ¬ final.Faithful :=
  ⟨exists_final (by decide +kernel), exists_final (by decide +kernel)⟩

/-! ## Calls without interference -/

/-- A thread that does some atomic operations without interference. -/
def BreakerPoint.advances (now : Int) : Nat → CircuitBreaker × BreakerPoint →
    CircuitBreaker × BreakerPoint
  | 0, reached => reached
  | count + 1, (breaker, point) => BreakerPoint.advances now count (point.advance breaker now)

/-- A thread that is not in a call does nothing. -/
theorem advances_idle (now : Int) (count : Nat) (breaker : CircuitBreaker) :
    BreakerPoint.advances now count (breaker, .idle) = (breaker, .idle) := by
  induction count with
  | zero => rfl
  | succ count ih => exact ih

/-- A thread in a call can always do its next operation. -/
theorem breaker_next_busy {system : BreakerSystem} {thread : Nat} {point : BreakerPoint}
    (now : Int) (hpoint : system.threads[thread]? = some point) (hbusy : point ≠ .idle) :
    breakerNext system (.operate thread now) =
      some
        { breaker := (point.advance system.breaker now).1
          threads := system.threads.set thread (point.advance system.breaker now).2
          changes := logChange system.breaker.state (point.advance system.breaker now).1.state
            system.changes } := by
  simp only [breakerNext, hpoint]

/-- The steps of one thread alone, as steps of the system. -/
theorem run_advances (now : Int) (count : Nat) (thread : Nat) (system : BreakerSystem)
    (point : BreakerPoint) (hpoint : system.threads[thread]? = some point) :
    ∃ steps ≤ count, ∃ final,
      run breakerNext system (List.replicate steps (.operate thread now)) = some final ∧
      final.breaker = (BreakerPoint.advances now count (system.breaker, point)).1 ∧
      final.threads =
        system.threads.set thread (BreakerPoint.advances now count (system.breaker, point)).2 := by
  induction count generalizing system point with
  | zero => exact ⟨0, le_rfl, system, rfl, rfl, (set_get_self hpoint).symm⟩
  | succ count ih =>
      by_cases hidle : point = .idle
      · subst hidle
        rw [advances_idle]
        exact ⟨0, Nat.zero_le _, system, rfl, rfl, (set_get_self hpoint).symm⟩
      · have hnext := breaker_next_busy now hpoint hidle
        obtain ⟨hlt, -⟩ := List.getElem?_eq_some_iff.mp hpoint
        obtain ⟨steps, hsteps, final, hrun, hbreaker, hthreads⟩ :=
          ih ⟨_, _, logChange _ _ system.changes⟩ _ (List.getElem?_set_self hlt)
        refine ⟨steps + 1, by omega, final, ?_, hbreaker, ?_⟩
        · rw [List.replicate_succ]
          exact run_cons_eq_some.mpr ⟨_, hnext, hrun⟩
        · rw [hthreads, List.set_set]
          rfl

/-- Without interference a call does what the sequential function does, in at most seven atomic
operations. -/
theorem advances_call {breaker : CircuitBreaker} (henabled : breaker.enabled = true)
    (op : BreakerOp) (now : Int) :
    BreakerPoint.advances now 7 (breaker, .loadState op) =
      ((breakerStep breaker (op.at now)).2, .idle) := by
  cases op with
  | allowRequest =>
      by_cases hopened : breaker.state = .opened
      · by_cases hpasses :
            now - breaker.lastFailureTime ≥ breaker.config.recoveryTimeoutSeconds.toInt <;>
          simp [BreakerOp.at, breakerStep, allow_opened henabled hopened, BreakerPoint.advances,
            BreakerPoint.advance, hopened, hpasses]
      · simp [BreakerOp.at, breakerStep, allow_not_opened hopened, BreakerPoint.advances,
          BreakerPoint.advance, hopened]
  | recordSuccess =>
      cases hstate : breaker.state with
      | closed =>
          simp [BreakerOp.at, breakerStep, success_closed henabled hstate,
            BreakerPoint.advances, BreakerPoint.advance, hstate]
      | opened =>
          rw [BreakerOp.at, report_opened henabled hstate (by trivial)]
          simp [BreakerPoint.advances, BreakerPoint.advance, hstate]
      | halfOpen =>
          by_cases hcloses : breaker.successCount + 1 ≥ 2 <;>
            simp [BreakerOp.at, breakerStep, success_half_open henabled hstate,
              BreakerPoint.advances, BreakerPoint.advance, hstate, hcloses]
  | recordFailure =>
      cases hstate : breaker.state with
      | closed =>
          by_cases hopens : breaker.failureCount + 1 ≥ breaker.config.failureThreshold <;>
            simp [BreakerOp.at, breakerStep, failure_closed henabled hstate,
              BreakerPoint.advances, BreakerPoint.advance, hstate, hopens]
      | opened =>
          rw [BreakerOp.at, report_opened henabled hstate (by trivial)]
          simp [BreakerPoint.advances, BreakerPoint.advance, hstate]
      | halfOpen =>
          simp [BreakerOp.at, breakerStep, failure_half_open henabled hstate,
            BreakerPoint.advances, BreakerPoint.advance, hstate]

/-- A call that nobody interferes with leaves the system with the breaker that the sequential
function returns, and with its thread out of the call again. -/
theorem call_alone {system : BreakerSystem} (henabled : system.breaker.enabled = true)
    {thread : Nat} (hidle : system.threads[thread]? = some .idle) (op : BreakerOp) (now : Int) :
    ∃ steps ≤ 7, ∃ final,
      run breakerNext system (.call thread op :: List.replicate steps (.operate thread now)) =
        some final ∧
      final.breaker = (breakerStep system.breaker (op.at now)).2 ∧
      final.threads = system.threads := by
  have hcall : breakerNext system (.call thread op) =
      some { system with threads := system.threads.set thread (.loadState op) } := by
    simp [breakerNext, hidle, henabled]
  obtain ⟨hlt, -⟩ := List.getElem?_eq_some_iff.mp hidle
  obtain ⟨steps, hsteps, final, hrun, hbreaker, hthreads⟩ :=
    run_advances now 7 thread { system with threads := system.threads.set thread (.loadState op) }
      (.loadState op) (List.getElem?_set_self hlt)
  refine ⟨steps, hsteps, final, run_cons_eq_some.mpr ⟨_, hcall, hrun⟩, ?_, ?_⟩
  · rw [hbreaker, advances_call henabled]
  · rw [hthreads, advances_call henabled, List.set_set]
    exact set_get_self hidle

end Emme.Backend
