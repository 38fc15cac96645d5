import Emme.Lib.Execution
import Emme.Lib.Ledger
import Emme.Lifecycle.Machine

/-!
# The accounts of the connections

A connection that the limiter admits is entered in two accounts: that of its address and
`in_flight_requests`. What was entered and not taken back is held by the main thread or by a task.
`AddressMove` and `RequestMove` say what one step can do to them, and every invariant of this file
follows from that.
-/

namespace Emme.Lifecycle

open Emme.IpLimiter Emme.Log Emme.Router Execution Ledger Threads

/-! ## What one step does to the accounts -/

/-- The account of the addresses. -/
structure AddressBook where
  limiter : Limiter
  calls : History
  admitted : List Client
  released : List Client

/-- The account of the addresses in a state. -/
def State.addresses (s : State) : AddressBook :=
  ⟨s.limiter, s.calls, s.admitted, s.released⟩

/-- The account of the requests in flight. -/
structure RequestBook where
  counter : UInt64
  counted : List Client
  uncounted : List Client

/-- The account of the requests in flight in a state. -/
def State.requests (s : State) : RequestBook :=
  ⟨s.ctx.inFlightRequests, s.counted, s.uncounted⟩

/-- The connection that may yet be counted. -/
def Hand.pending : Hand → List Client
  | .admitted client => [client]
  | .allocated client => [client]
  | _ => []

/-- What a step does to the account of the addresses. -/
inductive AddressMove (s s' : State) : Prop where
  | keep (hbook : s'.addresses = s.addresses) (howing : s.owing.Perm s'.owing)
  /-- A compaction, or a check that is not answered `IP_LIMITER_OK`. -/
  | refuse (call : IpCall) (hok : ∀ ip, answersOk ip (call, (s.limiter.step call).1) = false)
      (hdecrement : ∀ ip, isDecrement ip (call, (s.limiter.step call).1) = false)
      (hbook : s'.addresses = (s.call call).addresses) (howing : s.owing.Perm s'.owing)
  | enter (ip : UInt32) (now : UInt64) (currentCount : UInt32)
      (hok : (s.limiter.step (.check ip now)).1 = .checked .ok currentCount)
      (hbook : s'.addresses = (s.enter ip now).addresses)
      (howing : s'.owing.Perm (⟨s.admitted.length, ip⟩ :: s.owing))
  | release (client : Client) (hbook : s'.addresses = (s.release client).addresses)
      (howing : s.owing.Perm (client :: s'.owing))

/-- The connection in hand is not counted in this step: what may be counted later could be before
or is admitted now, and a new allocation found room. -/
structure HandKept (s s' : State) : Prop where
  pending : ∃ new, s'.admitted = s.admitted ++ new ∧
    s'.main.hand.pending.Sublist (s.main.hand.pending ++ new)
  room : ∀ client, s'.main.hand = .allocated client →
    s.main.hand = .allocated client ∨ s'.outstanding.length + 1 < sizeModulus

/-- What a step does to the account of the requests in flight. -/
inductive RequestMove (s s' : State) : Prop where
  | keep (hbook : s'.requests = s.requests) (hheld : s.outstanding.Perm s'.outstanding)
      (hhand : HandKept s s')
  | count (client : Client) (hbook : s'.requests = (s.count client).requests)
      (hheld : s'.outstanding.Perm (client :: s.outstanding))
      (hhand : s.main.hand = .allocated client) (hhand' : s'.main.hand = .counted client)
      (hadmitted : s'.admitted = s.admitted)
  | uncount (client : Client) (hbook : s'.requests = (s.uncount client).requests)
      (hheld : s.outstanding.Perm (client :: s'.outstanding)) (hhand : HandKept s s')

variable {client : Client} {book : AddressBook} {s' s : State}

section Steps

variable {s s' : State}

/-- A step that admits nothing and leaves what the main thread has in hand. -/
theorem HandKept.of_hand (hadmitted : s'.admitted = s.admitted)
    (hhand : s'.main.hand = s.main.hand) : HandKept s s' where
  pending := ⟨[], by rw [hadmitted, List.append_nil], by rw [hhand, List.append_nil]⟩
  room _ hclient := Or.inl (hhand ▸ hclient)

/-- A hand with nothing to be counted. -/
theorem HandKept.of_none (hadmitted : s'.admitted = s.admitted)
    (hpending : s'.main.hand.pending = []) : HandKept s s' where
  pending := ⟨[], by rw [hadmitted, List.append_nil], by rw [hpending]; exact List.nil_sublist _⟩
  room client hclient := by
    rw [hclient] at hpending
    cases hpending

/-- A step that leaves both accounts and the connection in hand alone. -/
theorem moves_of_hand (haddresses : s'.addresses = s.addresses)
    (hrequests : s'.requests = s.requests) (htasks : s'.tasks = s.tasks)
    (hhand : s'.main.hand = s.main.hand) : AddressMove s s' ∧ RequestMove s s' := by
  refine ⟨.keep haddresses ?_, .keep hrequests ?_ (.of_hand ?_ hhand)⟩
  · rw [State.owing, State.owing, htasks, hhand]
  · rw [State.outstanding, State.outstanding, htasks, hhand]
  · exact congrArg AddressBook.admitted haddresses

/-- What is owed to the limiter, by what the main thread has in hand. -/
theorem owing_of_hand {hand : Hand} (hhand : s.main.hand = hand) :
    s.owing = hand.owing ++ inventory (fun _ => Task.owing) s.tasks := by
  rw [State.owing, hhand]

/-- The requests in flight, by what the main thread has in hand. -/
theorem outstanding_of_hand {hand : Hand} (hhand : s.main.hand = hand) :
    s.outstanding = hand.outstanding ++ inventory (fun _ => Task.outstanding) s.tasks := by
  rw [State.outstanding, hhand]

/-- A call on the limiter that is made for no connection, or refuses one. -/
theorem moves_of_refusal {call : IpCall} {point : MainPoint} (hhand : s.main.hand = .empty)
    (hpoint : point.hand = .empty)
    (hok : ∀ ip, answersOk ip (call, (s.limiter.step call).1) = false)
    (hdecrement : ∀ ip, isDecrement ip (call, (s.limiter.step call).1) = false) :
    AddressMove s ((s.call call).goto point) ∧ RequestMove s ((s.call call).goto point) := by
  have hhand' : ((s.call call).goto point).main.hand = .empty := hpoint
  refine ⟨.refuse call hok hdecrement rfl ?_, .keep rfl ?_ (.of_none rfl (by rw [hhand']; rfl))⟩
  · rw [owing_of_hand hhand, owing_of_hand hhand']
    exact List.Perm.refl _
  · rw [outstanding_of_hand hhand, outstanding_of_hand hhand']
    exact List.Perm.refl _

/-- The limiter admits a connection. -/
theorem moves_of_admission {ip : UInt32} {now : UInt64} {currentCount : UInt32}
    (hhand : s.main.hand = .empty)
    (hok : (s.limiter.step (.check ip now)).1 = .checked .ok currentCount) :
    AddressMove s ((s.enter ip now).goto (.gettingFlags ⟨s.admitted.length, ip⟩)) ∧
      RequestMove s ((s.enter ip now).goto (.gettingFlags ⟨s.admitted.length, ip⟩)) := by
  refine ⟨.enter ip now currentCount hok rfl ?_, .keep rfl ?_ ⟨⟨_, rfl, ?_⟩, ?_⟩⟩
  · rw [owing_of_hand hhand]
    exact List.Perm.refl _
  · rw [outstanding_of_hand hhand]
    exact List.Perm.refl _
  · rw [hhand]
    exact List.Sublist.refl _
  · intro client hclient
    cases hclient

/-- A failed call before the connection is counted. -/
theorem moves_of_failure (hhand : s.main.hand = .admitted client) :
    AddressMove s (s.goto (.releasing client)) ∧ RequestMove s (s.goto (.releasing client)) := by
  refine ⟨.keep rfl ?_, .keep rfl ?_ (.of_none rfl rfl)⟩
  · rw [owing_of_hand hhand]
    exact List.Perm.refl _
  · rw [outstanding_of_hand hhand]
    exact List.Perm.refl _

/-- There is memory for the task of the connection. -/
theorem moves_of_allocation (hhand : s.main.hand = .admitted client)
    (hroom : s.outstanding.length + 1 < sizeModulus) :
    AddressMove s (s.goto (.counting client)) ∧ RequestMove s (s.goto (.counting client)) := by
  have hheld : s.outstanding = (s.goto (.counting client)).outstanding := by
    rw [outstanding_of_hand hhand]
    rfl
  refine ⟨.keep rfl ?_, .keep rfl (.of_eq hheld) ⟨⟨[], (List.append_nil _).symm, ?_⟩, ?_⟩⟩
  · rw [owing_of_hand hhand]
    exact List.Perm.refl _
  · rw [hhand]
    exact List.Sublist.refl _
  · intro other _
    rw [← hheld]
    exact Or.inr hroom

/-- The connection is counted. -/
theorem moves_of_count (hhand : s.main.hand = .allocated client) :
    AddressMove s ((s.count client).goto (.loadingCount client)) ∧
      RequestMove s ((s.count client).goto (.loadingCount client)) := by
  refine ⟨.keep rfl ?_, .count client rfl ?_ hhand rfl rfl⟩
  · rw [owing_of_hand hhand]
    exact List.Perm.refl _
  · rw [outstanding_of_hand hhand]
    exact List.Perm.refl _

/-- The connection passes from the main thread to its task. -/
theorem moves_of_dispatch (hhand : s.main.hand = .counted client) :
    AddressMove s { s.goto .testing with tasks := s.tasks ++ [⟨client, .queued⟩] } ∧
      RequestMove s { s.goto .testing with tasks := s.tasks ++ [⟨client, .queued⟩] } := by
  refine ⟨.keep rfl ?_, .keep rfl ?_ (.of_none rfl rfl)⟩
  · rw [owing_of_hand hhand, State.owing, inventory_concat]
    exact List.perm_append_comm
  · rw [outstanding_of_hand hhand, State.outstanding, inventory_concat]
    exact List.perm_append_comm

/-- The connection is taken back out of the counter, since its task was not accepted. -/
theorem moves_of_uncount (hhand : s.main.hand = .counted client) :
    AddressMove s ((s.uncount client).goto (.reloadingCount client)) ∧
      RequestMove s ((s.uncount client).goto (.reloadingCount client)) := by
  refine ⟨.keep rfl ?_, .uncount client rfl ?_ (.of_none rfl rfl)⟩
  · rw [owing_of_hand hhand]
    exact List.Perm.refl _
  · rw [outstanding_of_hand hhand]
    exact List.Perm.refl _

/-- The limiter is told that the connection is given up. -/
theorem moves_of_release (hhand : s.main.hand = .abandoned client) :
    AddressMove s ((s.release client).goto .testing) ∧
      RequestMove s ((s.release client).goto .testing) := by
  refine ⟨.release client rfl ?_, .keep rfl ?_ (.of_none rfl rfl)⟩
  · rw [owing_of_hand hhand]
    exact List.Perm.refl _
  · rw [outstanding_of_hand hhand]
    exact List.Perm.refl _

variable {answers : Answers}

/-- A step of the main thread moves both accounts. -/
theorem step_main_moves (h : stepMain s answers = some s') :
    AddressMove s s' ∧ RequestMove s s' := by
  have hkeep {point : MainPoint} (hhand : point.hand = s.main.hand) :
      AddressMove s (s.goto point) ∧ RequestMove s (s.goto point) :=
    moves_of_hand rfl rfl rfl hhand
  -- first the points that leave the connection in hand as it is
  cases hmain : s.main with
  | testing | leaving | draining | readingClock =>
      simp only [stepMain, hmain, Option.some.injEq] at h
      subst h
      refine hkeep ?_
      rw [hmain]
      split <;> rfl
  | accepting =>
      simp only [stepMain, hmain] at h
      split at h <;> cases h <;> exact hkeep (by rw [hmain]; rfl)
  | loadingState ip =>
      simp only [stepMain, hmain] at h
      split at h <;> cases h
      · exact hkeep (by rw [hmain]; rfl)
      · refine hkeep ?_
        rw [hmain]
        cases ip <;> rfl
  | loadingCount | publishing | reloadingCount | republishing | forcing | loadingPeak
  | loadingRemaining | storingCompleted | storingForced | reporting =>
      simp only [stepMain, hmain, Option.some.injEq] at h
      subst h
      exact moves_of_hand rfl rfl rfl (by rw [hmain]; rfl)
  | finished =>
      simp only [stepMain, hmain] at h
      cases h
  | housekeeping =>
      simp only [stepMain, hmain, Option.some.injEq] at h
      subst h
      cases answers.ok with
      | false => exact hkeep (by rw [hmain]; rfl)
      | true =>
          exact moves_of_refusal (by rw [hmain]; rfl) rfl (fun _ => rfl) (fun _ => rfl)
  | checking ip =>
      simp only [stepMain, hmain] at h
      split at h <;> rename_i hanswer <;> cases h
      · exact moves_of_admission (by rw [hmain]; rfl) hanswer
      · refine moves_of_refusal (by rw [hmain]; rfl) rfl (fun other => ?_) (fun _ => rfl)
        rw [answersOk.eq_def]
        split
        · rename_i heq
          exact absurd (Prod.mk.inj heq).2 (hanswer _)
        · rfl
  | gettingFlags client | settingFlags client =>
      simp only [stepMain, hmain, Option.some.injEq] at h
      subst h
      cases answers.ok with
      | false => exact moves_of_failure (by rw [hmain]; rfl)
      | true => exact hkeep (by rw [hmain]; rfl)
  | allocating client =>
      simp only [stepMain, hmain] at h
      split at h
      · split at h <;> cases h
        rename_i hroom
        exact moves_of_allocation (by rw [hmain]; rfl) hroom
      · cases h
        exact moves_of_failure (by rw [hmain]; rfl)
  | counting client =>
      simp only [stepMain, hmain, Option.some.injEq] at h
      subst h
      exact moves_of_count (by rw [hmain]; rfl)
  | dispatching client =>
      simp only [stepMain, hmain] at h
      split at h <;> cases h
      · exact moves_of_dispatch (by rw [hmain]; rfl)
      · exact hkeep (by rw [hmain]; rfl)
  | uncounting client =>
      simp only [stepMain, hmain, Option.some.injEq] at h
      subst h
      exact moves_of_uncount (by rw [hmain]; rfl)
  | releasing client =>
      simp only [stepMain, hmain, Option.some.injEq] at h
      subst h
      exact moves_of_release (by rw [hmain]; rfl)

/-- A step of a task moves both accounts. -/
theorem step_task_moves {t : Nat} {task : Task} (ht : s.tasks[t]? = some task)
    (h : stepTask s t task answers = some s') : AddressMove s s' ∧ RequestMove s s' := by
  obtain ⟨client, point⟩ := task
  cases point with
  | queued | serving | loadingCount | publishing =>
      simp only [stepTask, Option.some.injEq] at h
      subst h
      refine ⟨.keep rfl (inventory_kept ht ?_ _),
        .keep rfl (inventory_kept ht ?_ _) (.of_hand rfl rfl)⟩ <;> rfl
  | starting =>
      simp only [stepTask, Option.some.injEq] at h
      subst h
      refine ⟨.keep rfl (inventory_kept ht ?_ _),
        .keep rfl (inventory_kept ht ?_ _) (.of_hand rfl rfl)⟩
      · cases answers.ok <;> rfl
      · cases answers.ok <;> rfl
  | releasing =>
      simp only [stepTask, Option.some.injEq] at h
      subst h
      refine ⟨.release client rfl (inventory_dropped ht rfl ?_ _),
        .keep rfl (inventory_kept ht ?_ _) (.of_hand rfl rfl)⟩ <;> rfl
  | uncounting =>
      simp only [stepTask, Option.some.injEq] at h
      subst h
      refine ⟨.keep rfl (inventory_kept ht ?_ _),
        .uncount client rfl (inventory_dropped ht rfl ?_ _) (.of_hand rfl rfl)⟩ <;> rfl
  | finished => cases h

/-- A handler run touches neither account, nor what the other threads hold. -/
theorem step_handler_keeps {h : Nat} {handler : Handler}
    (hstep : stepHandler s h handler answers = some s') :
    s'.addresses = s.addresses ∧ s'.requests = s.requests ∧ s'.tasks = s.tasks ∧
      s'.main = s.main := by
  obtain ⟨sig, point⟩ := handler
  cases point with
  | loadingState =>
      simp only [stepHandler] at hstep
      split at hstep
      · cases hstep
        exact ⟨rfl, rfl, rfl, rfl⟩
      · cases sig <;> cases hstep <;> exact ⟨rfl, rfl, rfl, rfl⟩
  | finished => cases hstep
  | _ =>
      cases hstep
      exact ⟨rfl, rfl, rfl, rfl⟩

/-- What one step does to the two accounts. -/
theorem next_moves {label : Label} (h : next s label = some s') :
    AddressMove s s' ∧ RequestMove s s' := by
  cases label with
  | deliver sig =>
      cases h
      exact moves_of_hand rfl rfl rfl rfl
  | main answers => exact step_main_moves h
  | task t answers =>
      simp only [next] at h
      split at h
      · rename_i task ht
        exact step_task_moves ht h
      · cases h
  | handler i answers =>
      simp only [next] at h
      split at h
      · obtain ⟨haddresses, hrequests, htasks, hmain⟩ := step_handler_keeps h
        exact moves_of_hand haddresses hrequests htasks (by rw [hmain])
      · cases h

end Steps

/-! ## The account of the addresses -/

/-- Every admitted connection has been released or is held, and the calls on the limiter are
those made for them. -/
structure AddressAccount (book : AddressBook) (owing : List Client) : Prop where
  numbered : book.admitted.map Client.conn = List.range book.admitted.length
  balanced : Balanced book.admitted book.released owing
  checks : ∀ ip, book.calls.countP (answersOk ip) = book.admitted.countP (·.ip = ip)
  decrements : ∀ ip, book.calls.countP (isDecrement ip) = book.released.countP (·.ip = ip)

/-- If no address is 0.0.0.0, the limiter holds the connections of each address. -/
def LimiterExact (book : AddressBook) : Prop :=
  (∀ event ∈ book.calls, event.1.NonZero) → LimiterInv book.limiter (loadOf book.calls)

/-- No connection is admitted twice, since their numbers differ. -/
theorem AddressAccount.nodup {owing : List Client} (h : AddressAccount book owing) :
    book.admitted.Nodup := by
  refine List.Nodup.of_map Client.conn ?_
  rw [h.numbered]
  exact List.nodup_range

/-- The connections an address has by the answers of the limiter are those that are held. -/
theorem AddressAccount.active_eq {owing : List Client} (h : AddressAccount book owing)
    (ip : UInt32) : active book.calls ip = owing.countP (·.ip = ip) := by
  have hcount := h.balanced.countP_eq (·.ip = ip)
  rw [active, h.checks, h.decrements, hcount]
  omega

section AddressSteps

variable {s : State} {owing owing' : List Client}

/-- A call that admits and gives back nothing. -/
theorem AddressAccount.refuse (h : AddressAccount s.addresses owing) {call : IpCall}
    (hok : ∀ ip, answersOk ip (call, (s.limiter.step call).1) = false)
    (hdecrement : ∀ ip, isDecrement ip (call, (s.limiter.step call).1) = false) :
    AddressAccount (s.call call).addresses owing where
  numbered := h.numbered
  balanced := h.balanced
  checks ip := by
    have hcalls := h.checks ip
    simpa [State.addresses, State.call, hok ip] using hcalls
  decrements ip := by
    have hcalls := h.decrements ip
    simpa [State.addresses, State.call, hdecrement ip] using hcalls

/-- A connection that is admitted is held. -/
theorem AddressAccount.enter (h : AddressAccount s.addresses owing) {ip : UInt32} {now : UInt64}
    {currentCount : UInt32}
    (hok : (s.limiter.step (.check ip now)).1 = .checked .ok currentCount)
    (howing : owing'.Perm (⟨s.admitted.length, ip⟩ :: owing)) :
    AddressAccount (s.enter ip now).addresses owing' where
  numbered := by
    have hnumbered := h.numbered
    simp only [State.addresses] at hnumbered
    simp [State.addresses, State.enter, hnumbered, List.range_succ]
  balanced := h.balanced.enter howing
  checks other := by
    have hcalls := h.checks other
    simpa [State.addresses, State.enter, State.call, hok, answersOk, List.countP_singleton]
      using hcalls
  decrements other := by
    have hcalls := h.decrements other
    simpa [State.addresses, State.enter, State.call, isDecrement] using hcalls

/-- A connection that was held is released. -/
theorem AddressAccount.release (h : AddressAccount s.addresses owing)
    (howing : owing.Perm (client :: owing')) :
    AddressAccount (s.release client).addresses owing' where
  numbered := h.numbered
  balanced := h.balanced.close howing
  checks other := by
    have hcalls := h.checks other
    simpa [State.addresses, State.release, State.call, answersOk] using hcalls
  decrements other := by
    have hcalls := h.decrements other
    simpa [State.addresses, State.release, State.call, isDecrement, List.countP_singleton]
      using hcalls

/-- Who holds a connection does not matter. -/
theorem AddressAccount.pass (h : AddressAccount book owing) (howing : owing.Perm owing') :
    AddressAccount book owing' where
  numbered := h.numbered
  balanced := h.balanced.pass howing
  checks := h.checks
  decrements := h.decrements

/-- Every move keeps the account of the addresses. -/
theorem AddressAccount.move (h : AddressAccount s.addresses s.owing) (hmove : AddressMove s s') :
    AddressAccount s'.addresses s'.owing := by
  cases hmove with
  | keep hbook howing =>
      rw [hbook]
      exact h.pass howing
  | refuse call hok hdecrement hbook howing =>
      rw [hbook]
      exact (h.refuse hok hdecrement).pass howing
  | enter ip now currentCount hok hbook howing =>
      rw [hbook]
      exact h.enter hok howing
  | release client hbook howing =>
      rw [hbook]
      exact h.release howing

/-- Every call that is made on the limiter keeps it exact, since no address is released more
often than it was admitted. -/
theorem LimiterExact.call {s' : State} (hexact : LimiterExact s.addresses)
    (h : AddressAccount s.addresses s.owing) (h' : AddressAccount s'.addresses s'.owing)
    {call : IpCall} (hlimiter : s'.limiter = (s.limiter.step call).2)
    (hcalls : s'.calls = s.calls ++ [(call, (s.limiter.step call).1)]) :
    LimiterExact s'.addresses := by
  have hnonneg {s : State} (h : AddressAccount s.addresses s.owing) (ip : UInt32) :
      0 ≤ active s.calls ip := by
    have hactive := h.active_eq ip
    change active s.calls ip = _ at hactive
    omega
  intro hnonzero
  change LimiterInv s'.limiter (loadOf s'.calls)
  change ∀ event ∈ s'.calls, event.1.NonZero at hnonzero
  rw [hcalls] at hnonzero
  rw [hlimiter, hcalls]
  refine step_inv (hexact fun event hevent => hnonzero event (List.mem_append_left _ hevent))
    (hnonneg h) (hnonzero _ (List.mem_append_right _ List.mem_cons_self)) ?_
  intro ip
  have hafter := hnonneg h' ip
  rwa [hcalls] at hafter

/-- Every move keeps the limiter exact. -/
theorem LimiterExact.move (hexact : LimiterExact s.addresses)
    (h : AddressAccount s.addresses s.owing) (hmove : AddressMove s s') :
    LimiterExact s'.addresses := by
  have h' := h.move hmove
  have hcall {call : IpCall} {state : State}
      (hbook : s'.addresses = state.addresses) (hlimiter : state.limiter = (s.limiter.step call).2)
      (hcalls : state.calls = s.calls ++ [(call, (s.limiter.step call).1)]) :
      LimiterExact s'.addresses :=
    hexact.call h h' ((congrArg AddressBook.limiter hbook).trans hlimiter)
      ((congrArg AddressBook.calls hbook).trans hcalls)
  cases hmove with
  | keep hbook howing =>
      rw [hbook]
      exact hexact
  | refuse call hok hdecrement hbook howing => exact hcall hbook rfl rfl
  | enter ip now currentCount hok hbook howing => exact hcall hbook rfl rfl
  | release client hbook howing => exact hcall hbook rfl rfl

end AddressSteps

/-! ## The account of the requests in flight -/

/-- Every counted connection has been taken back or is held, and the counter is the number of
those that are held. -/
structure RequestAccount (s : State) : Prop where
  balanced : Balanced s.counted s.uncounted s.outstanding
  counter : s.ctx.inFlightRequests.toNat = s.outstanding.length
  ordered : (s.counted ++ s.main.hand.pending).Sublist s.admitted
  room : ∀ client, s.main.hand = .allocated client → s.outstanding.length + 1 < sizeModulus

section RequestSteps

variable {s s' : State}

/-- Connections are counted in the order of their admission, and so may be the one in hand. -/
theorem RequestAccount.ordered_kept (h : RequestAccount s) (hhand : HandKept s s') :
    (s.counted ++ s'.main.hand.pending).Sublist s'.admitted := by
  obtain ⟨new, hadmitted, hpending⟩ := hhand.pending
  rw [hadmitted]
  refine (hpending.append_left s.counted).trans ?_
  rw [← List.append_assoc]
  exact h.ordered.append (List.Sublist.refl new)

/-- There is still room in the counter for the connection in hand. -/
theorem RequestAccount.room_kept (h : RequestAccount s) (hhand : HandKept s s')
    (hheld : s'.outstanding.length ≤ s.outstanding.length)
    (hclient : s'.main.hand = .allocated client) : s'.outstanding.length + 1 < sizeModulus := by
  rcases hhand.room client hclient with hallocated | hroom
  · have hroom := h.room client hallocated
    omega
  · exact hroom

/-- Every move keeps the account of the requests. -/
theorem RequestAccount.move (h : RequestAccount s) (hmove : RequestMove s s') :
    RequestAccount s' := by
  cases hmove with
  | keep hbook hheld hhand =>
      obtain ⟨hcounter, hcounted, huncounted⟩ := RequestBook.mk.inj hbook
      refine ⟨?_, ?_, ?_, fun client => h.room_kept hhand hheld.length_eq.ge⟩
      · rw [hcounted, huncounted]
        exact h.balanced.pass hheld
      · rw [hcounter, h.counter, hheld.length_eq]
      · rw [hcounted]
        exact h.ordered_kept hhand
  | count client hbook hheld hhand hhand' hadmitted =>
      obtain ⟨hcounter, hcounted, huncounted⟩ := RequestBook.mk.inj hbook
      have hroom := h.room client hhand
      refine ⟨?_, ?_, ?_, fun other hother => ?_⟩
      · rw [hcounted, huncounted]
        exact h.balanced.enter hheld
      · -- `malloc` found room for one more, and no other thread counts
        have hsum : s.ctx.inFlightRequests.toNat + 1 < 2 ^ 64 := by
          rw [h.counter]
          exact hroom
        rw [hcounter, State.count, UInt64.toNat_add, UInt64.toNat_one, Nat.mod_eq_of_lt hsum,
          h.counter, hheld.length_eq, List.length_cons]
      · have hordered := h.ordered
        rw [hhand] at hordered
        rw [hhand', hadmitted, hcounted]
        simpa [Hand.pending, State.count] using hordered
      · rw [hhand'] at hother
        cases hother
  | uncount client hbook hheld hhand =>
      obtain ⟨hcounter, hcounted, huncounted⟩ := RequestBook.mk.inj hbook
      have hlength := hheld.length_eq
      rw [List.length_cons] at hlength
      refine ⟨?_, ?_, ?_, fun other => h.room_kept hhand (by omega)⟩
      · rw [hcounted, huncounted]
        exact h.balanced.close hheld
      · -- the connection that is taken back is among those counted, so the counter is not 0
        have hpos : 1 ≤ s.ctx.inFlightRequests := by
          rw [UInt64.le_iff_toNat_le, h.counter, hlength, UInt64.toNat_one]
          omega
        rw [hcounter, State.uncount, UInt64.toNat_sub_of_le _ _ hpos, h.counter, hlength,
          UInt64.toNat_one, Nat.add_sub_cancel]
      · rw [hcounted]
        exact h.ordered_kept hhand

/-- At the start nothing is counted. -/
theorem RequestAccount.init (limiter : Limiter) (timeout : Int) :
    RequestAccount (initializeServer limiter timeout) :=
  ⟨Balanced.nil, rfl, List.Sublist.refl _, nofun⟩

/-- No more tasks are unfinished than requests are counted. -/
theorem RequestAccount.unfinished_le (h : RequestAccount s) :
    s.tasks.countP (·.point.unfinished) ≤ s.ctx.inFlightRequests.toNat := by
  have hlength := length_inventory (fun task : Task => task.point.unfinished) Task.client s.tasks
  rw [h.counter, State.outstanding, List.length_append, ← hlength]
  exact Nat.le_add_left _ _

end RequestSteps

/-! ## Whole runs -/

/-- Both accounts, and the limiter. -/
structure AccountsInv (s : State) : Prop where
  addresses : AddressAccount s.addresses s.owing
  exact : LimiterExact s.addresses
  requests : RequestAccount s

/-- Every step keeps the accounts. -/
theorem AccountsInv.step {label : Label} (h : AccountsInv s) (hnext : next s label = some s') :
    AccountsInv s' := by
  obtain ⟨haddress, hrequest⟩ := next_moves hnext
  exact ⟨h.addresses.move haddress, h.exact.move h.addresses haddress, h.requests.move hrequest⟩

/-- At the start the accounts are empty. -/
theorem AccountsInv.init {limit : UInt32} {start : UInt64} {fresh : Limiter}
    (hinit : ipLimiterInit limit start = some fresh) (timeout : Int) :
    AccountsInv (initializeServer fresh timeout) where
  addresses := ⟨rfl, Balanced.nil, fun _ => rfl, fun _ => rfl⟩
  exact _ := (init_inv hinit).2
  requests := .init fresh timeout

/-- Every run from the start keeps the accounts. -/
theorem accounts_run {limit : UInt32} {start : UInt64} {fresh : Limiter}
    (hinit : ipLimiterInit limit start = some fresh) {timeout : Int} {labels : List Label}
    (hrun : run next (initializeServer fresh timeout) labels = some s) : AccountsInv s :=
  run_preserves (fun _ _ _ h hnext => h.step hnext) (.init hinit timeout) hrun

/-- All connections have finished: the main thread deals with none, and every task has
returned. -/
def State.Settled (s : State) : Prop :=
  s.main.hand = .empty ∧ ∀ task ∈ s.tasks, task.point = .finished

instance (s : State) : Decidable s.Settled := inferInstanceAs (Decidable (_ ∧ _))

/-- When all connections have finished, none is held. -/
theorem State.Settled.held (h : s.Settled) : s.owing = [] ∧ s.outstanding = [] := by
  obtain ⟨hhand, htasks⟩ := h
  constructor
  · rw [owing_of_hand hhand]
    refine List.eq_nil_iff_forall_not_mem.mpr fun client hclient => ?_
    obtain ⟨t, task, ht, hclient⟩ := mem_inventory.mp hclient
    rw [Task.owing, htasks task (List.mem_of_getElem? ht)] at hclient
    cases hclient
  · rw [outstanding_of_hand hhand]
    refine List.eq_nil_iff_forall_not_mem.mpr fun client hclient => ?_
    obtain ⟨t, task, ht, hclient⟩ := mem_inventory.mp hclient
    rw [Task.outstanding, htasks task (List.mem_of_getElem? ht)] at hclient
    cases hclient

/-- If no address has a connection, every counter of the limiter is 0. -/
theorem LimiterExact.counters_zero (h : LimiterExact book)
    (hactive : ∀ ip, active book.calls ip = 0) (hnonzero : ∀ event ∈ book.calls, event.1.NonZero)
    {shard i : Nat} (hi : i < (book.limiter.shards shard).count) :
    ((book.limiter.shards shard).entries i).count = 0 := by
  have hholds := ((h hnonzero).shards shard).holds
  by_contra hne
  have hpos : 0 < ((book.limiter.shards shard).entries i).count.toNat :=
    Nat.pos_of_ne_zero fun hzero => hne (UInt32.toNat_inj.mp hzero)
  -- a counter above 0 would be the load of the slot's address
  obtain ⟨-, htotal⟩ := hholds.total_of_pos hi hpos
  have hload : shardLoad (loadOf book.calls) shard = fun _ => 0 := by
    funext ip
    simp [shardLoad, loadOf, hactive ip]
  rw [hload] at htotal
  exact absurd htotal (Nat.ne_of_lt hpos)

/-! ## Every connection can finish -/

/-- The steps to the end of the connection in hand if every call on the way fails. -/
def MainPoint.distance : MainPoint → Nat
  | .gettingFlags _ => 2
  | .settingFlags _ => 2
  | .allocating _ => 2
  | .counting _ => 8
  | .loadingCount _ => 7
  | .publishing _ _ => 6
  | .dispatching _ => 5
  | .uncounting _ => 4
  | .reloadingCount _ => 3
  | .republishing _ _ => 2
  | .releasing _ => 1
  | _ => 0

/-- The steps to the end of a task. -/
def TaskPoint.distance : TaskPoint → Nat
  | .queued => 7
  | .starting => 6
  | .serving => 5
  | .releasing => 4
  | .uncounting => 3
  | .loadingCount => 2
  | .publishing _ => 1
  | .finished => 0

/-- The steps until all connections have finished, if every call of the main thread fails. -/
def State.distance (s : State) : Nat :=
  s.main.distance + (s.tasks.map (·.point.distance)).sum

/-- With a connection in hand the main thread can step closer to its end. -/
theorem main_retreats (h : s.main.hand ≠ .empty) :
    ∃ s', next s (.main { ok := false }) = some s' ∧ s'.distance < s.distance := by
  cases hmain : s.main with
  | gettingFlags | settingFlags | allocating | counting | loadingCount | publishing | dispatching
  | uncounting | reloadingCount | republishing | releasing =>
      simp only [next, stepMain, hmain]
      refine ⟨_, rfl, ?_⟩
      simp [State.distance, hmain, MainPoint.distance, State.goto, State.count, State.uncount,
        State.release, State.call]
  | _ =>
      rw [hmain] at h
      exact absurd rfl h

/-- A task that has not finished can step closer to its end. -/
theorem task_advances {t : Nat} {task : Task} (ht : s.tasks[t]? = some task)
    (h : task.point ≠ .finished) :
    ∃ s', next s (.task t {}) = some s' ∧ s'.distance < s.distance := by
  have hsum {point : TaskPoint} (hpoint : point.distance < task.point.distance) :
      s.main.distance +
          ((s.tasks.set t { task with point }).map fun task => task.point.distance).sum <
        s.distance :=
    Nat.add_lt_add_left
      (@sum_set_lt _ (fun task : Task => task.point.distance) _ _ _ { task with point } ht hpoint) _
  simp only [next, ht]
  obtain ⟨client, point⟩ := task
  cases point with
  | finished => exact absurd rfl h
  | _ => exact ⟨_, rfl, hsum (Nat.lt_succ_self _)⟩

/-- From every state the connections can finish, whatever has failed so far. -/
theorem exists_settled (s : State) :
    ∃ more final, run next s more = some final ∧ final.Settled := by
  induction hn : s.distance using Nat.strong_induction_on generalizing s with
  | _ n ih =>
      have hstep {label : Label}
          (h : ∃ s', next s label = some s' ∧ s'.distance < s.distance) :
          ∃ more final, run next s more = some final ∧ final.Settled := by
        obtain ⟨s', hnext, hlt⟩ := h
        obtain ⟨more, final, hrun, hsettled⟩ := ih s'.distance (hn ▸ hlt) s' rfl
        exact ⟨label :: more, final, run_cons_eq_some.mpr ⟨s', hnext, hrun⟩, hsettled⟩
      -- the main thread gets rid of its connection first, then the tasks run to their end
      by_cases hhand : s.main.hand = .empty
      · by_cases htasks : ∀ task ∈ s.tasks, task.point = .finished
        · exact ⟨[], s, rfl, hhand, htasks⟩
        · push Not at htasks
          obtain ⟨task, hmem, hpoint⟩ := htasks
          obtain ⟨t, ht⟩ := List.mem_iff_getElem?.mp hmem
          exact hstep (task_advances ht hpoint)
      · exact hstep (main_retreats hhand)

/-! ## The accounts -/

/-- What the accounts of the connections guarantee. -/
structure Accounted (s : State) : Prop where
  /-- No connection is admitted twice, and `ip_limiter_decrement` is called once for each of
  them, and not before: once it does not hold its place any more. -/
  released_once : s.admitted.Nodup ∧ s.released ⊆ s.admitted ∧
    ∀ client ∈ s.admitted, s.released.count client = if client ∈ s.owing then 0 else 1
  /-- These calls are the calls on the limiter, address by address. -/
  calls : ∀ ip, s.calls.countP (answersOk ip) = s.admitted.countP (·.ip = ip) ∧
    s.calls.countP (isDecrement ip) = s.released.countP (·.ip = ip)
  /-- Each `atomic_fetch_add` is followed by one `atomic_fetch_sub` for the same connection. -/
  uncounted_once : s.counted.Nodup ∧ s.uncounted ⊆ s.counted ∧
    ∀ client ∈ s.counted, s.uncounted.count client = if client ∈ s.outstanding then 0 else 1
  /-- The counter has not wrapped around: it is the number of requests still to be taken back,
  and all unfinished tasks are among them. -/
  counter : s.ctx.inFlightRequests.toNat = s.outstanding.length ∧
    s.tasks.countP (·.point.unfinished) ≤ s.ctx.inFlightRequests.toNat
  /-- A drain loop that reads 0 leaves no task unfinished. -/
  drained : s.ctx.inFlightRequests = 0 → ∀ task ∈ s.tasks, task.point.unfinished = false
  /-- Both accounts are back to 0 when all connections have finished. -/
  settled : s.Settled → s.ctx.inFlightRequests = 0 ∧ (∀ ip, active s.calls ip = 0) ∧
    ((∀ event ∈ s.calls, event.1.NonZero) → ∀ shard i, i < (s.limiter.shards shard).count →
      ((s.limiter.shards shard).entries i).count = 0)

/-- The accounts give what is guaranteed. -/
theorem AccountsInv.accounted (h : AccountsInv s) : Accounted s where
  released_once :=
    ⟨h.addresses.nodup, h.addresses.balanced.closed_subset,
      fun _ => h.addresses.balanced.count_closed h.addresses.nodup⟩
  calls ip := ⟨h.addresses.checks ip, h.addresses.decrements ip⟩
  uncounted_once := by
    have hnodup : s.counted.Nodup :=
      h.addresses.nodup.sublist ((List.sublist_append_left _ _).trans h.requests.ordered)
    exact ⟨hnodup, h.requests.balanced.closed_subset,
      fun _ => h.requests.balanced.count_closed hnodup⟩
  counter := ⟨h.requests.counter, h.requests.unfinished_le⟩
  drained := by
    intro hzero task htask
    have hle := h.requests.unfinished_le
    rw [hzero, UInt64.toNat_zero, Nat.le_zero, List.countP_eq_zero] at hle
    exact Bool.not_eq_true _ ▸ hle task htask
  settled := by
    intro hsettled
    obtain ⟨howing, houtstanding⟩ := hsettled.held
    have hactive (ip : UInt32) : active s.calls ip = 0 := by
      have hcount := h.addresses.active_eq ip
      rw [howing] at hcount
      exact hcount
    refine ⟨UInt64.toNat_inj.mp ?_, hactive, fun hnonzero shard i hi => ?_⟩
    · rw [h.requests.counter, houtstanding]
      rfl
    · exact h.exact.counters_zero hactive hnonzero hi

/-- For every interleaving of the accept loop, the client tasks and the shutdown, and whatever
the calls on the way answer, every admitted connection is released once and every counted request
is taken back once; and from every state that is reached all connections can finish. -/
theorem accounts_balance {limit : UInt32} {start : UInt64} {fresh : Limiter}
    (hinit : ipLimiterInit limit start = some fresh) (timeout : Int) {labels : List Label}
    {s : State} (hrun : run next (initializeServer fresh timeout) labels = some s) :
    Accounted s ∧ ∃ more final, run next s more = some final ∧ final.Settled :=
  ⟨(accounts_run hinit hrun).accounted, exists_settled s⟩

/-- Two connections from one address: the first is served, `fcntl` fails for the second while
the task of the first is in `handle_client`. -/
def twoConnections : List Label :=
  [.main {}, .main { ok := false }, .main { accept := .client 7 }, .main {}, .main { ns := 1 },
    .main {}, .main {}, .main {}, .main {}, .main {}, .main {}, .main {},
    .task 0 {}, .task 0 {},
    .main {}, .main { ok := false }, .main { accept := .client 7 }, .main {}, .main { ns := 2 },
    .main { ok := false },
    .task 0 {}, .task 0 {}, .main {}, .task 0 {}, .task 0 {}, .task 0 {}]

/-- Two connections of one address come and go. -/
theorem two_connections_balance :
    ∃ fresh, ipLimiterInit 2 0 = some fresh ∧
      ∃ s, run next (initializeServer fresh 30) twoConnections = some s ∧ s.Settled ∧
        s.released = [⟨0, 7⟩, ⟨1, 7⟩] ∧ Accounted s := by
  obtain ⟨fresh, hinit⟩ : ∃ fresh, ipLimiterInit 2 0 = some fresh := ⟨_, rfl⟩
  obtain ⟨s, hrun, hsettled, hreleased⟩ :
      ∃ s, run next (initializeServer fresh 30) twoConnections = some s ∧
        (s.Settled ∧ s.released = [⟨0, 7⟩, ⟨1, 7⟩]) := by
    cases hinit
    exact exists_final (by decide +kernel)
  exact ⟨fresh, hinit, s, hrun, hsettled, hreleased, (accounts_balance hinit 30 hrun).1⟩

end Emme.Lifecycle
