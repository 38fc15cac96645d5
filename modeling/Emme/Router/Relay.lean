import Emme.Lib.CString
import Emme.Lib.Execution

/-!
# The relay between a TLS client and a backend

`proxy_bidirectional_tls` as a machine that stops at every call of `read`, `SSL_write`, `SSL_read`
and `send` for its result. Only a failing call sets `done` (`run_done_iff`). Peers that close in an
orderly way answer none with a failure (`orderly_run`), and with them the relay goes on reading for
ever (`relay_never_ends`).
-/

namespace Emme.Router.Relay

open CString Execution

/-! ## The machine -/

/-- `BUFFER_SIZE`. -/
def bufferSize : Nat := 32768

/-- The call the function is waiting for, with the bytes that a write has still to transfer.
`writeClient` is the call in `ssl_write_all`. -/
inductive Control where
  | readBackend
  | writeClient (rest : Bytes)
  | readClient
  | sendBackend (rest : Bytes)
  | returned
  deriving DecidableEq, Repr

/-- The flag `done`, and what reached the two peers so far. -/
structure State where
  control : Control
  done : Bool
  toClient : Bytes
  toBackend : Bytes
  deriving DecidableEq, Repr

/-- The result of a call. A read yields the bytes it put into the buffer, none at the end of the
stream, or fails; a write yields the number of bytes it took. -/
inductive Answer where
  | read (result : Option Bytes)
  | write (result : Int)
  deriving DecidableEq, Repr

/-- A read that fails, or a write that takes nothing. -/
def Answer.Failed : Answer → Prop
  | .read result => result = none
  | .write result => result ≤ 0

/-- The state on entry. -/
def entry : State := ⟨.readBackend, false, [], []⟩

/-- The test of `while (!done)`. -/
def State.test (state : State) : State :=
  { state with control := if state.done then .returned else .readBackend }

/-- The loop of `ssl_write_all` with these bytes left: the next call is `SSL_write`, or the one
after the loop. -/
def writing (rest : Bytes) : Control := if rest = [] then .readClient else .writeClient rest

/-- The send loop with these bytes left. -/
def State.sending (state : State) (rest : Bytes) : State :=
  if rest = [] then state.test else { state with control := .sendBackend rest }

/-- One call and what follows it up to the next. -/
def next (state : State) (answer : Answer) : Option State :=
  match state.control, answer with
  | .readBackend, .read none => some { state with done := true, control := .readClient }
  | .readBackend, .read (some chunk) => some { state with control := writing chunk }
  | .writeClient rest, .write n =>
      if n ≤ 0 then
        some { state with done := true, control := .readClient }
      else
        some
          { state with
            toClient := state.toClient ++ rest.take n.toNat
            control := writing (rest.drop n.toNat) }
  | .readClient, .read none => some (State.test { state with done := true })
  | .readClient, .read (some chunk) => some (state.sending chunk)
  | .sendBackend rest, .write n =>
      if n ≤ 0 then
        some (State.test { state with done := true })
      else
        some (State.sending { state with toBackend := state.toBackend ++ rest.take n.toNat }
          (rest.drop n.toNat))
  | _, _ => none

/-! ## What ends the loop -/

/-- The send loop leaves `done` alone. -/
@[simp] theorem sending_done (state : State) (rest : Bytes) :
    (state.sending rest).done = state.done := by
  unfold State.sending
  split <;> rfl

variable {state : State}

/-- A call sets `done` if and only if it fails. -/
theorem next_done_iff {following : State} {answer : Answer}
    (h : next state answer = some following) :
    following.done = true ↔ state.done = true ∨ answer.Failed := by
  unfold next at h
  split at h
  · cases h
    simp [Answer.Failed]
  · cases h
    simp [Answer.Failed]
  · split at h
    all_goals
      rename_i hresult
      cases h
      simp only [Answer.Failed, hresult, or_true, or_false]
  · cases h
    simp [Answer.Failed, State.test]
  · cases h
    simp [Answer.Failed]
  · split at h
    all_goals
      rename_i hresult
      cases h
      simp only [Answer.Failed, State.test, sending_done, hresult, or_true, or_false]
  · cases h

/-- `done` is set if and only if some call has failed. -/
theorem run_done_iff {final : State} {answers : List Answer}
    (hrun : run next state answers = some final) :
    final.done = true ↔ state.done = true ∨ ∃ answer ∈ answers, answer.Failed := by
  induction answers generalizing state with
  | nil =>
      cases hrun
      simp
  | cons answer answers ih =>
      obtain ⟨following, hnext, hrest⟩ := run_cons_eq_some.mp hrun
      rw [ih hrest, next_done_iff hnext]
      simp only [List.mem_cons, exists_eq_or_imp, or_assoc]

/-- The loop is left when `done` is set and entered again when it is not, and a write has
something to transfer. -/
structure Placed (state : State) : Prop where
  left : state.control = .returned → state.done = true
  entered : state.control = .readBackend → state.done = false
  writes : ∀ rest, state.control = .writeClient rest ∨ state.control = .sendBackend rest → rest ≠ []

/-- The test of the loop leads to its first call or out of it. -/
theorem test_placed (state : State) : Placed state.test := by
  cases hdone : state.done with
  | true => constructor <;> simp [State.test, hdone]
  | false => constructor <;> simp [State.test, hdone]

/-- The send loop has something to send or goes to the test. -/
theorem sending_placed (state : State) (rest : Bytes) : Placed (state.sending rest) := by
  unfold State.sending
  split
  · exact test_placed state
  · rename_i hrest
    constructor <;> simp [hrest]

/-- A state that reads from the client. -/
theorem placed_reading_client (h : state.control = .readClient) : Placed state := by
  constructor <;> simp [h]

/-- The loop of `ssl_write_all` has something to write or goes on to the read. -/
theorem placed_writing {rest : Bytes} (h : state.control = writing rest) : Placed state := by
  unfold writing at h
  split at h
  · exact placed_reading_client h
  · rename_i hrest
    constructor <;> simp [h, hrest]

/-- Every call leads to a control point in its place. -/
theorem next_placed {following : State} {answer : Answer} (h : next state answer = some following) :
    Placed following := by
  unfold next at h
  split at h
  · cases h
    exact placed_reading_client rfl
  · cases h
    exact placed_writing rfl
  · split at h
    · cases h
      exact placed_reading_client rfl
    · cases h
      exact placed_writing rfl
  · cases h
    exact test_placed _
  · cases h
    exact sending_placed _ _
  · split at h
    · cases h
      exact test_placed _
    · cases h
      exact sending_placed _ _
  · cases h

/-- The loop is entered. -/
theorem entry_placed : Placed entry := by
  constructor <;> simp [entry]

/-- The function returns only if some call has failed, and it starts no other round once one
has. -/
theorem returned_of_failure {answers : List Answer} {final : State}
    (hrun : run next entry answers = some final) :
    (final.control = .returned → ∃ answer ∈ answers, answer.Failed) ∧
      ((∃ answer ∈ answers, answer.Failed) → final.control ≠ .readBackend) := by
  have hplaced : Placed final :=
    run_preserves (fun _ _ _ _ hnext => next_placed hnext) entry_placed hrun
  have hdone := run_done_iff hrun
  simp only [entry, Bool.false_eq_true, false_or] at hdone
  constructor
  · intro hreturned
    exact hdone.mp (hplaced.left hreturned)
  · intro hfailed hreading
    have := hplaced.entered hreading
    rw [hdone.mpr hfailed] at this
    cases this

/-! ## Orderly peers -/

/-- The relay together with what the two peers have still to send. -/
structure World where
  state : State
  backend : Bytes
  client : Bytes
  deriving DecidableEq, Repr

/-- The relay on entry, between peers that will send these streams. -/
def start (backend client : Bytes) : World := ⟨entry, backend, client⟩

/-- How many of the `available` bytes a call moves: any number from 1 to all of them, as the
environment chooses, and 0 if there are none. -/
def moved (choice available : Nat) : Nat :=
  if 0 < choice ∧ choice ≤ available then choice else available

/-- A call moves something if there is something. -/
theorem moved_pos (choice : Nat) {available : Nat} (h : 0 < available) :
    0 < moved choice available := by
  unfold moved
  split <;> omega

/-- The bytes one read takes from a stream. -/
def readSize (choice : Nat) (stream : Bytes) : Nat := moved choice (min bufferSize stream.length)

/-- The world after the answer to a call. -/
def World.answered (world : World) (answer : Answer) : Option Answer × World :=
  (some answer, { world with state := (next world.state answer).getD world.state })

/-- One call between orderly peers: a read returns a piece of the stream, and 0 after its end, and
a write takes a piece of what it is given. -/
def World.step (world : World) (choice : Nat) : Option Answer × World :=
  match world.state.control with
  | .readBackend =>
      { world with backend := world.backend.drop (readSize choice world.backend) }.answered
        (.read (some (world.backend.take (readSize choice world.backend))))
  | .writeClient rest => world.answered (.write (moved choice rest.length))
  | .readClient =>
      { world with client := world.client.drop (readSize choice world.client) }.answered
        (.read (some (world.client.take (readSize choice world.client))))
  | .sendBackend rest => world.answered (.write (moved choice rest.length))
  | .returned => (none, world)

/-- The four calls of the relay between orderly peers. -/
inductive Call (world : World) (choice : Nat) : Prop where
  | readBackend (hcontrol : world.state.control = .readBackend)
      (hstep : (world.step choice).2 =
        { world with
          state.control := writing (world.backend.take (readSize choice world.backend))
          backend := world.backend.drop (readSize choice world.backend) })
  | writeClient (rest : Bytes) (hcontrol : world.state.control = .writeClient rest)
      (hstep : (world.step choice).2 =
        { world with
          state.toClient := world.state.toClient ++ rest.take (moved choice rest.length)
          state.control := writing (rest.drop (moved choice rest.length)) })
  | readClient (hcontrol : world.state.control = .readClient)
      (hstep : (world.step choice).2 =
        { world with
          state := world.state.sending (world.client.take (readSize choice world.client))
          client := world.client.drop (readSize choice world.client) })
  | sendBackend (rest : Bytes) (hcontrol : world.state.control = .sendBackend rest)
      (hstep : (world.step choice).2 =
        { world with
          state := State.sending
            { world.state with
              toBackend := world.state.toBackend ++ rest.take (moved choice rest.length) }
            (rest.drop (moved choice rest.length)) })

/-- The relay is at one of its calls, and no call has failed. -/
structure Flows (world : World) : Prop where
  placed : Placed world.state
  running : world.state.done = false

/-- At the start no call has failed. -/
theorem start_flows (backend client : Bytes) : Flows (start backend client) :=
  ⟨entry_placed, rfl⟩

/-- A write that has something to transfer takes a part of it. -/
theorem Placed.accepts (h : Placed state) {rest : Bytes}
    (hcontrol : state.control = .writeClient rest ∨ state.control = .sendBackend rest)
    (choice : Nat) : ¬ (moved choice rest.length : Int) ≤ 0 := by
  have hpos := moved_pos choice (List.length_pos_of_ne_nil (h.writes rest hcontrol))
  omega

/-- The relay makes one of its four calls. -/
theorem Flows.call {world : World} (h : Flows world) (choice : Nat) : Call world choice := by
  cases hcontrol : world.state.control with
  | readBackend =>
      refine .readBackend hcontrol ?_
      simp [World.step, World.answered, next, hcontrol]
  | writeClient rest =>
      have hresult := h.placed.accepts (Or.inl hcontrol) choice
      refine .writeClient rest hcontrol ?_
      simp only [World.step, World.answered, next, hcontrol, if_neg hresult, Option.getD_some,
        Int.toNat_natCast]
  | readClient =>
      refine .readClient hcontrol ?_
      simp [World.step, World.answered, next, hcontrol]
  | sendBackend rest =>
      have hresult := h.placed.accepts (Or.inr hcontrol) choice
      refine .sendBackend rest hcontrol ?_
      simp only [World.step, World.answered, next, hcontrol, if_neg hresult, Option.getD_some,
        Int.toNat_natCast]
  | returned =>
      have := h.placed.left hcontrol
      rw [h.running] at this
      cases this

variable {world : World}

/-- Orderly peers answer the call with a success. -/
theorem Flows.answer (h : Flows world) (choice : Nat) :
    ∃ answer, (world.step choice).1 = some answer ∧ ¬ answer.Failed ∧
      next world.state answer = some (world.step choice).2.state := by
  cases h.call choice with
  | readBackend hcontrol hstep =>
      refine ⟨_, by rw [World.step, hcontrol]; rfl, by simp [Answer.Failed], ?_⟩
      rw [hstep]
      simp [next, hcontrol]
  | writeClient rest hcontrol hstep =>
      have hresult := h.placed.accepts (Or.inl hcontrol) choice
      refine ⟨.write (moved choice rest.length), by rw [World.step, hcontrol]; rfl, hresult, ?_⟩
      rw [hstep]
      simp only [next, hcontrol, if_neg hresult, Int.toNat_natCast]
  | readClient hcontrol hstep =>
      refine ⟨_, by rw [World.step, hcontrol]; rfl, by simp [Answer.Failed], ?_⟩
      rw [hstep]
      simp [next, hcontrol]
  | sendBackend rest hcontrol hstep =>
      have hresult := h.placed.accepts (Or.inr hcontrol) choice
      refine ⟨.write (moved choice rest.length), by rw [World.step, hcontrol]; rfl, hresult, ?_⟩
      rw [hstep]
      simp only [next, hcontrol, if_neg hresult, Int.toNat_natCast]

/-- The calls go on without a failure. -/
theorem Flows.step (h : Flows world) (choice : Nat) : Flows (world.step choice).2 := by
  obtain ⟨answer, _, hsuccess, hnext⟩ := h.answer choice
  refine ⟨next_placed hnext, Bool.eq_false_iff.mpr fun hdone => ?_⟩
  rcases (next_done_iff hnext).mp hdone with hdone | hfailed
  · rw [h.running] at hdone
    cases hdone
  · exact hsuccess hfailed

/-- Between orderly peers the function runs as the machine does on answers none of which is a
failure. -/
theorem orderly_run (h : Flows world) (choices : List Nat) :
    ∃ answers, (∀ answer ∈ answers, ¬ answer.Failed) ∧
      run next world.state answers = some (after World.step world choices).state := by
  induction choices generalizing world with
  | nil => exact ⟨[], fun answer hanswer => absurd hanswer List.not_mem_nil, rfl⟩
  | cons choice choices ih =>
      obtain ⟨answer, _, hsuccess, hnext⟩ := h.answer choice
      obtain ⟨answers, hall, hrun⟩ := ih (h.step choice)
      refine ⟨answer :: answers, fun a ha => ?_, run_cons_eq_some.mpr ⟨_, hnext, hrun⟩⟩
      rcases List.mem_cons.mp ha with rfl | ha
      · exact hsuccess
      · exact hall a ha

/-- Between orderly peers the function never returns. -/
theorem orderly_not_returned (backend client : Bytes) (choices : List Nat) :
    (after World.step (start backend client) choices).state.control ≠ .returned := by
  intro hreturned
  obtain ⟨answers, hall, hrun⟩ := orderly_run (start_flows backend client) choices
  obtain ⟨answer, hanswer, hfailed⟩ := (returned_of_failure hrun).1 hreturned
  exact hall answer hanswer hfailed

/-! ## Termination -/

/-- With pieces chosen in this way, the function returns after some number of calls, having
written each peer's stream to the other. -/
def Relayed (backend client : Bytes) (choices : Nat → Nat) : Prop :=
  ∃ calls,
    (after World.step (start backend client) ((List.range calls).map choices)).state.control =
        .returned ∧
      (after World.step (start backend client) ((List.range calls).map choices)).state.toClient =
        backend ∧
      (after World.step (start backend client) ((List.range calls).map choices)).state.toBackend =
        client

/-- Between orderly peers whose writes are all accepted, `proxy_bidirectional_tls` does not
return, whatever the streams and however the calls split them. -/
theorem relay_never_ends (backend client : Bytes) (choices : Nat → Nat) :
    ¬ Relayed backend client choices := by
  rintro ⟨calls, hreturned, _⟩
  exact orderly_not_returned backend client ((List.range calls).map choices) hreturned

/-- Two peers that close at once: every second call is the same `read` of 0 bytes again. -/
theorem closed_peers_spin :
    after World.step (start [] []) [0, 0] = start [] [] ∧ ¬ Relayed [] [] fun _ => 0 := by
  refine ⟨by decide, ?_⟩
  rintro ⟨calls, hreturned, _⟩
  exact orderly_not_returned [] [] _ hreturned

end Emme.Router.Relay
