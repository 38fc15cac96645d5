import Emme.Http2.Client
import Emme.Settings.Load

/-!
# The loop of an HTTP/2 connection

`handle_http2_connection` tests its limits once in every round and then waits for the socket. The
library calls back for the fields of a request, for its complete header block, which is routed at
once, and for the end of a stream. What clock, socket and library do in a round is an input. One
counter and one start time stand for all streams.
-/

namespace Emme.Server

open Execution Emme.Http2 Emme.Settings

/-! ## Time -/

/-- `struct timeval` as `gettimeofday` fills it in. -/
structure Timeval where
  sec : Int
  usec : Int
  usec_range : 0 ≤ usec ∧ usec < 1000000
  deriving DecidableEq, Repr

/-- The point of time in microseconds. -/
def Timeval.micros (time : Timeval) : Int := time.sec * 1000000 + time.usec

/-- No microseconds. -/
theorem usec_zero_range : (0 : Int) ≤ 0 ∧ (0 : Int) < 1000000 := by decide

/-- What the initialiser of `H2IO` leaves in `request_start`. -/
def Timeval.zero : Timeval := ⟨0, 0, usec_zero_range⟩

/-- `elapsed_ms`: the division rounds towards zero and the result is cast to `int`. -/
def elapsedMs (now start : Timeval) : Int :=
  (Int32.ofInt ((now.sec - start.sec) * 1000 + (now.usec - start.usec).tdiv 1000)).toInt

/-- The conversion to `int` makes no number larger that is not negative. -/
theorem int32_cast_le {n : Int} (h : 0 ≤ n) : (Int32.ofInt n).toInt ≤ n := by
  have hsize : ((Int32.size : Nat) : Int) = 4294967296 := rfl
  rw [Int32.toInt_ofInt, Int.bmod_def, hsize]
  split <;> omega

/-- A limit that is exceeded by the measured time is exceeded by the time that has passed. -/
theorem age_of_elapsed {now start : Timeval} {limit : Int} (horder : start.micros ≤ now.micros)
    (h : limit < elapsedMs now start) : limit * 1000 < now.micros - start.micros := by
  unfold elapsedMs at h
  unfold Timeval.micros at horder ⊢
  have hnow := now.usec_range
  have hstart := start.usec_range
  -- rounding towards zero adds less than a millisecond to a negative difference
  have hdiv := Int.mul_tdiv_add_tmod (now.usec - start.usec) 1000
  have hlower := Int.lt_tmod_of_pos (now.usec - start.usec) (b := 1000) (by decide)
  have hupper := Int.tmod_lt_of_pos (now.usec - start.usec) (b := 1000) (by decide)
  have hcast := int32_cast_le (n := (now.sec - start.sec) * 1000 +
    (now.usec - start.usec).tdiv 1000) (by omega)
  omega

/-! ## The session -/

/-- A stream whose request headers have begun to arrive and that has not been closed. `complete`
says that its header block has been handed on. -/
structure OpenStream where
  id : Nat
  arrival : Timeval
  complete : Bool
  deriving DecidableEq, Repr

/-- The fields of `H2IO` that the loop reads, the streams with a `StreamData`, the last reading of
the clock, and how many requests have been routed. Stream numbers are odd and below 2³¹, so
`request_count` stays within its `int`. -/
structure H2Session where
  wantRead : Bool
  wantWrite : Bool
  requestCount : Nat
  requestStart : Timeval
  streams : List OpenStream
  clock : Timeval
  routed : Nat
  deriving DecidableEq, Repr

/-- A callback of the library: `send_callback` or `recv_callback` with the flags it leaves,
`on_header_callback` for the `:method` of a request, `on_frame_recv_callback` for its complete
header block, where the response record is `allocated` or not, and `on_stream_close_callback`. -/
inductive SessionEvent where
  | transfer (wantRead wantWrite : Bool)
  | method (stream : Nat) (arrival : Timeval)
  | request (stream : Nat) (allocated : Bool)
  | close (stream : Nat)
  deriving DecidableEq, Repr

/-- `nghttp2_session_send` takes no frames from the peer. -/
def SessionEvent.outgoing : SessionEvent → Bool
  | .transfer _ _ | .close _ => true
  | .method _ _ | .request _ _ => false

/-- The request is routed. -/
def SessionEvent.routes : SessionEvent → Bool
  | .request _ allocated => allocated
  | _ => false

/-- `on_header_callback`. -/
def H2Session.onHeader (session : H2Session) (stream : Nat) (arrival : Timeval) : H2Session :=
  { session with
    requestCount := session.requestCount + 1
    requestStart := arrival
    streams := ⟨stream, arrival, false⟩ :: session.streams
    clock := arrival }

/-- The header block of the stream is complete. -/
def markComplete (stream : Nat) (entry : OpenStream) : OpenStream :=
  if entry.id = stream then { entry with complete := true } else entry

/-- `on_frame_recv_callback`, which does nothing for a stream without a `StreamData`. -/
def H2Session.onFrameRecv (session : H2Session) (stream : Nat) (allocated : Bool) : H2Session :=
  if session.streams.any (·.id == stream) then
    { session with
      streams := session.streams.map (markComplete stream)
      routed := if allocated then session.routed + 1 else session.routed }
  else session

/-- `on_stream_close_callback`. -/
def H2Session.onStreamClose (session : H2Session) (stream : Nat) : H2Session :=
  { session with streams := session.streams.filter (·.id != stream) }

/-- What the callback for an event does to the session. -/
def H2Session.onEvent (session : H2Session) : SessionEvent → H2Session
  | .transfer wantRead wantWrite => { session with wantRead, wantWrite }
  | .method stream arrival => session.onHeader stream arrival
  | .request stream allocated => session.onFrameRecv stream allocated
  | .close stream => session.onStreamClose stream

/-- What the clock and the library can do: time does not go back, a request comes on a new stream,
and a header block is complete once and after its `:method`. -/
def H2Session.Possible (session : H2Session) : SessionEvent → Prop
  | .method stream arrival =>
      session.clock.micros ≤ arrival.micros ∧ ∀ entry ∈ session.streams, entry.id ≠ stream
  | .request stream _ => ∃ entry ∈ session.streams, entry.id = stream ∧ entry.complete = false
  | .transfer _ _ | .close _ => True

instance (session : H2Session) : DecidablePred session.Possible
  | .method _ _ => inferInstanceAs (Decidable (_ ∧ _))
  | .request _ _ => inferInstanceAs (Decidable (∃ _ ∈ _, _))
  | .transfer _ _ => inferInstanceAs (Decidable True)
  | .close _ => inferInstanceAs (Decidable True)

/-- One event, if the clock and the library allow it. -/
def H2Session.next (session : H2Session) (event : SessionEvent) : Option H2Session :=
  if session.Possible event then some (session.onEvent event) else none

variable {session : H2Session} {stream : Nat}

/-- A step of the session is a possible event. -/
theorem session_next_cases {following : H2Session} {event : SessionEvent}
    (h : session.next event = some following) :
    session.Possible event ∧ following = session.onEvent event := by
  unfold H2Session.next at h
  split at h
  · exact ⟨by assumption, (Option.some.inj h).symm⟩
  · cases h

/-! ## What holds of the session -/

/-- How many streams wait for the rest of their header block. -/
def H2Session.waiting (session : H2Session) : Nat := session.streams.countP (!·.complete)

/-- The start time is that of the newest request, and requests are counted before they are
routed. -/
structure H2Session.Consistent (session : H2Session) : Prop where
  opened : ∀ entry ∈ session.streams, 0 < session.requestCount
  arrived : ∀ entry ∈ session.streams, entry.arrival.micros ≤ session.requestStart.micros
  started : 0 < session.requestCount → session.requestStart.micros ≤ session.clock.micros
  counted : session.routed + session.waiting ≤ session.requestCount

/-- The arrival of a stream stays. -/
theorem mark_complete_arrival (stream : Nat) (entry : OpenStream) :
    (markComplete stream entry).arrival = entry.arrival := by
  unfold markComplete
  split <;> rfl

/-- A header block that is complete does not wait. -/
theorem mark_complete_waits (stream : Nat) (entry : OpenStream) :
    (markComplete stream entry).complete = (entry.complete || entry.id == stream) := by
  unfold markComplete
  split <;> simp_all

/-- Marking a stream complete leaves no more streams waiting. -/
theorem count_marked_le (streams : List OpenStream) (stream : Nat) :
    (streams.map (markComplete stream)).countP (!·.complete) ≤ streams.countP (!·.complete) := by
  rw [List.countP_map]
  refine List.countP_mono_left fun entry _ hwaits => ?_
  simp only [Function.comp_apply, mark_complete_waits, Bool.not_or, Bool.and_eq_true] at hwaits
  exact hwaits.1

/-- If the stream was waiting, one less is. -/
theorem count_marked_lt {streams : List OpenStream}
    (h : ∃ entry ∈ streams, entry.id = stream ∧ entry.complete = false) :
    (streams.map (markComplete stream)).countP (!·.complete) < streams.countP (!·.complete) := by
  induction streams with
  | nil =>
      obtain ⟨entry, hentry, -⟩ := h
      exact absurd hentry List.not_mem_nil
  | cons first streams ih =>
      obtain ⟨entry, hentry, hid, hwaits⟩ := h
      simp only [List.map_cons, List.countP_cons, mark_complete_waits]
      rcases List.mem_cons.mp hentry with rfl | hentry
      · have hrest := count_marked_le streams stream
        simp only [hwaits, hid, BEq.rfl, Bool.or_true, Bool.not_true, Bool.not_false, if_true,
          Bool.false_eq_true, if_false]
        omega
      · have hrest := ih ⟨entry, hentry, hid, hwaits⟩
        cases first.complete <;> cases first.id == stream <;>
          simp only [Bool.or_true, Bool.or_false, Bool.not_true, Bool.not_false, if_true,
            Bool.false_eq_true, if_false] <;> omega

/-- `on_header_callback` counts the request and records its arrival as the start time. -/
theorem on_header_consistent {arrival : Timeval} (h : session.Consistent)
    (hclock : session.clock.micros ≤ arrival.micros) :
    (session.onHeader stream arrival).Consistent where
  opened _ _ := Nat.succ_pos _
  arrived entry hentry := by
    rcases List.mem_cons.mp hentry with rfl | hentry
    · exact Int.le_refl _
    · have hstart := h.started (h.opened entry hentry)
      exact (h.arrived entry hentry).trans (hstart.trans hclock)
  started _ := Int.le_refl _
  counted := by
    have hcounted := h.counted
    simp only [H2Session.onHeader, H2Session.waiting, List.countP_cons] at hcounted ⊢
    simp only [Bool.not_false, if_true]
    omega

/-- `on_frame_recv_callback` routes a request that was counted. -/
theorem on_frame_recv_consistent (h : session.Consistent)
    (hwaits : ∃ entry ∈ session.streams, entry.id = stream ∧ entry.complete = false)
    (allocated : Bool) : (session.onFrameRecv stream allocated).Consistent := by
  unfold H2Session.onFrameRecv
  split
  · refine ⟨fun entry hentry => ?_, fun entry hentry => ?_, h.started, ?_⟩
    · obtain ⟨original, horiginal, -⟩ := List.mem_map.mp hentry
      exact h.opened original horiginal
    · obtain ⟨original, horiginal, rfl⟩ := List.mem_map.mp hentry
      rw [mark_complete_arrival]
      exact h.arrived original horiginal
    · have hcounted := h.counted
      have hmarked := count_marked_lt hwaits
      simp only [H2Session.waiting] at hcounted ⊢
      split <;> omega
  · exact h

/-- `on_stream_close_callback` only takes a stream away. -/
theorem on_stream_close_consistent (h : session.Consistent) (stream : Nat) :
    (session.onStreamClose stream).Consistent where
  opened entry hentry := h.opened entry (List.mem_of_mem_filter hentry)
  arrived entry hentry := h.arrived entry (List.mem_of_mem_filter hentry)
  started := h.started
  counted := (Nat.add_le_add_left List.filter_sublist.countP_le _).trans h.counted

/-- Every event keeps the session consistent. -/
theorem session_next_consistent (session : H2Session) (event : SessionEvent)
    (following : H2Session) (h : session.Consistent) (hnext : session.next event = some following) :
    following.Consistent := by
  obtain ⟨hpossible, rfl⟩ := session_next_cases hnext
  cases event with
  | transfer wantRead wantWrite => exact ⟨h.opened, h.arrived, h.started, h.counted⟩
  | method stream arrival => exact on_header_consistent h hpossible.1
  | request stream allocated => exact on_frame_recv_consistent h hpossible allocated
  | close stream => exact on_stream_close_consistent h stream

/-! Every header block that is handed on is routed, unless there is no memory for its response. -/

/-- An event routes one request or none. -/
theorem session_next_routed {following : H2Session} {event : SessionEvent}
    (h : session.next event = some following) :
    following.routed = session.routed + if event.routes then 1 else 0 := by
  obtain ⟨hpossible, rfl⟩ := session_next_cases h
  cases event with
  | transfer wantRead wantWrite => rfl
  | method stream arrival => rfl
  | close stream => rfl
  | request stream allocated =>
      obtain ⟨entry, hentry, hid, -⟩ := hpossible
      have hdata : session.streams.any (·.id == stream) = true :=
        List.any_eq_true.mpr ⟨entry, hentry, beq_iff_eq.mpr hid⟩
      simp only [H2Session.onEvent, H2Session.onFrameRecv, hdata, if_true, SessionEvent.routes]
      cases allocated <;> rfl

/-- The requests that are routed are counted by the events. -/
theorem session_run_routed {final : H2Session} {events : List SessionEvent}
    (h : run H2Session.next session events = some final) :
    final.routed = session.routed + events.countP SessionEvent.routes := by
  induction events generalizing session with
  | nil =>
      cases h
      rfl
  | cons event events ih =>
      obtain ⟨following, hnext, hrest⟩ := run_cons_eq_some.mp h
      rw [ih hrest, session_next_routed hnext, List.countP_cons]
      omega

/-- `nghttp2_session_send` routes nothing. -/
theorem outgoing_not_routed {events : List SessionEvent}
    (h : events.all SessionEvent.outgoing = true) : events.countP SessionEvent.routes = 0 := by
  refine List.countP_eq_zero.mpr fun event hevent => ?_
  have houtgoing := List.all_eq_true.mp h event hevent
  cases event <;> simp_all [SessionEvent.outgoing, SessionEvent.routes]

/-! ## The loop -/

/-- The limits of the configuration that the loop tests. -/
structure ConnectionLimits extends HTTP2Config where
  requestTimeoutMs : Int
  deriving DecidableEq

/-- Why the loop is left. -/
inductive EndReason where
  /-- The library wants neither to read nor to write. -/
  | drained
  | keepalive
  | maxRequests
  | requestTimeout
  | pollFailed
  | hangup
  | recvFailed
  | sendFailed
  deriving DecidableEq, Repr

/-- A call of `nghttp2_session_recv` or `nghttp2_session_send`. -/
structure SessionCall where
  events : List SessionEvent
  returned : Int
  deriving DecidableEq, Repr

/-- The result of `poll`. -/
inductive SocketPoll where
  | failed
  | idle
  | hangup
  | ready (readable writable : Bool)
  deriving DecidableEq, Repr

/-- The inputs of a round: what the library wants, `time`, `gettimeofday`, `poll`, and the library
calls in case they are made. -/
structure LoopRound where
  wantRead : Bool
  wantWrite : Bool
  now : Int
  tvNow : Timeval
  poll : SocketPoll
  recv : SessionCall
  send : SessionCall
  send_outgoing : send.events.all SessionEvent.outgoing = true
  deriving DecidableEq

/-- The local variables of `handle_http2_connection`, with the number of times that it has called
`metrics_increment_request_timeouts`. -/
structure Http2Connection where
  session : H2Session
  lastActivity : Int
  requestTimeouts : Nat
  ended : Option EndReason
  deriving DecidableEq

/-- The connection before its first round, after the initial `SETTINGS`. -/
def Http2Connection.start (now : Int) (clock : Timeval) (wantRead wantWrite : Bool) :
    Http2Connection :=
  ⟨⟨wantRead, wantWrite, 0, .zero, [], clock, 0⟩, now, 0, none⟩

/-- The loop is left for a reason. -/
def Http2Connection.finish (connection : Http2Connection) (reason : EndReason) : Http2Connection :=
  { connection with ended := some reason }

/-- The tests before `poll`, in their order. -/
def Http2Connection.check (limits : ConnectionLimits) (connection : Http2Connection)
    (round : LoopRound) : Option EndReason :=
  if !(round.wantRead || round.wantWrite) then some .drained
  else if limits.keepaliveTimeout < round.now - connection.lastActivity then some .keepalive
  else if limits.maxRequestsPerConnection ≤ connection.session.requestCount then some .maxRequests
  else if 0 < connection.session.requestCount ∧
      limits.requestTimeoutMs < elapsedMs round.tvNow connection.session.requestStart then
    some .requestTimeout
  else none

/-- The events that `poll` is asked for. -/
def H2Session.pollEvents (session : H2Session) (round : LoopRound) : Bool × Bool :=
  if session.wantRead || session.wantWrite then (session.wantRead, session.wantWrite)
  else (round.wantRead, round.wantWrite)

/-- A library call and what the loop makes of its result; `failure` is the reason to leave it. -/
def Http2Connection.callLibrary (connection : Http2Connection) (now : Int) (call : SessionCall)
    (failure : EndReason) : Option Http2Connection :=
  (run H2Session.next connection.session call.events).map fun session =>
    if 0 ≤ call.returned then { connection with session, lastActivity := now }
    else if call.returned = errWouldBlock then { connection with session }
    else { connection with session }.finish failure

/-- The branch for `POLLIN`. -/
def Http2Connection.receive (connection : Http2Connection) (round : LoopRound) :
    Option Http2Connection :=
  connection.callLibrary round.now round.recv .recvFailed

/-- The branch for `POLLOUT`. -/
def Http2Connection.transmit (connection : Http2Connection) (round : LoopRound) :
    Option Http2Connection :=
  connection.callLibrary round.now round.send .sendFailed

/-- `poll` reports that the socket can be read, having been asked for it. -/
def H2Session.readable (session : H2Session) (round : LoopRound) : Bool :=
  match round.poll with
  | .ready readable _ => readable && (session.pollEvents round).1
  | _ => false

/-- `poll` was asked for `POLLOUT` and reports it. -/
def H2Session.writable (session : H2Session) (round : LoopRound) : Bool :=
  match round.poll with
  | .ready _ writable => writable && (session.pollEvents round).2
  | _ => false

/-- The round from `poll` on. -/
def Http2Connection.attend (connection : Http2Connection) (round : LoopRound) :
    Option Http2Connection :=
  match round.poll with
  | .failed => some (connection.finish .pollFailed)
  | .idle => some connection
  | .hangup => some (connection.finish .hangup)
  | .ready _ _ =>
      (if connection.session.readable round then connection.receive round
        else some connection).bind fun received =>
        if received.ended = none ∧ connection.session.writable round = true then
          received.transmit round
        else some received

/-- The clock has been read. -/
def Http2Connection.tick (connection : Http2Connection) (time : Timeval) : Http2Connection :=
  { connection with session := { connection.session with clock := time } }

/-- One round of the loop. -/
def Http2Connection.next (limits : ConnectionLimits) (connection : Http2Connection)
    (round : LoopRound) : Option Http2Connection :=
  if connection.ended = none ∧ connection.session.clock.micros ≤ round.tvNow.micros then
    match connection.check limits round with
    | some .requestTimeout =>
        some { (connection.tick round.tvNow).finish .requestTimeout with
          requestTimeouts := connection.requestTimeouts + 1 }
    | some reason => some ((connection.tick round.tvNow).finish reason)
    | none => (connection.tick round.tvNow).attend round
  else none

/-! ## What a round does -/

variable {following connection : Http2Connection} {round : LoopRound}

/-- A library call runs its events, and may end the connection with its failure only. -/
theorem call_library_cases {now : Int} {call : SessionCall} {failure : EndReason}
    (h : connection.callLibrary now call failure = some following) :
    run H2Session.next connection.session call.events = some following.session ∧
      following.requestTimeouts = connection.requestTimeouts ∧
      (following.ended = connection.ended ∨ following.ended = some failure) := by
  obtain ⟨session, hrun, rfl⟩ := Option.map_eq_some_iff.mp h
  split_ifs
  · exact ⟨hrun, rfl, Or.inl rfl⟩
  · exact ⟨hrun, rfl, Or.inl rfl⟩
  · exact ⟨hrun, rfl, Or.inr rfl⟩

/-- The callbacks of `nghttp2_session_recv` in the round. -/
def H2Session.received (session : H2Session) (round : LoopRound) : List SessionEvent :=
  if session.readable round then round.recv.events else []

/-- A socket that is not read leaves the session as it is. -/
theorem unread_run (h : session.readable round = false) :
    run H2Session.next session (session.received round ++ []) = some session := by
  rw [H2Session.received, h, List.append_nil]
  rfl

/-- The first half of a round from `poll` on. -/
theorem receive_cases (hopen : connection.ended = none)
    (h : (if connection.session.readable round then connection.receive round
      else some connection) = some following) :
    run H2Session.next connection.session (connection.session.received round) =
        some following.session ∧
      following.requestTimeouts = connection.requestTimeouts ∧
      following.ended ≠ some .requestTimeout := by
  unfold H2Session.received
  split at h
  · rename_i hreadable
    obtain ⟨hrun, htimeouts, hended⟩ := call_library_cases h
    rw [hopen] at hended
    rw [if_pos hreadable]
    exact ⟨hrun, htimeouts, by rcases hended with hended | hended <;> simp [hended]⟩
  · rename_i hreadable
    cases h
    rw [if_neg hreadable]
    exact ⟨rfl, rfl, by simp [hopen]⟩

/-- From `poll` on a round runs the library calls that `poll` asks for, and does not end with a
request timeout. -/
theorem attend_cases (hopen : connection.ended = none)
    (h : connection.attend round = some following) :
    (∃ sent, sent.all SessionEvent.outgoing = true ∧
      run H2Session.next connection.session (connection.session.received round ++ sent) =
        some following.session) ∧
      following.requestTimeouts = connection.requestTimeouts ∧
      following.ended ≠ some .requestTimeout := by
  unfold Http2Connection.attend at h
  cases hpoll : round.poll with
  | failed =>
      simp only [hpoll, Option.some.injEq] at h
      subst h
      exact ⟨⟨[], rfl, unread_run (by simp [H2Session.readable, hpoll])⟩, rfl, nofun⟩
  | idle =>
      simp only [hpoll, Option.some.injEq] at h
      subst h
      exact ⟨⟨[], rfl, unread_run (by simp [H2Session.readable, hpoll])⟩, rfl, by simp [hopen]⟩
  | hangup =>
      simp only [hpoll, Option.some.injEq] at h
      subst h
      exact ⟨⟨[], rfl, unread_run (by simp [H2Session.readable, hpoll])⟩, rfl, nofun⟩
  | ready readable writable =>
      simp only [hpoll] at h
      obtain ⟨middle, hreceive, htransmit⟩ := Option.bind_eq_some_iff.mp h
      obtain ⟨hrun, htimeouts, hended⟩ := receive_cases hopen hreceive
      split at htransmit
      · rename_i hsends
        obtain ⟨hsent, hsame, hreason⟩ := call_library_cases htransmit
        rw [hsends.1] at hreason
        refine ⟨⟨round.send.events, round.send_outgoing, ?_⟩, hsame.trans htimeouts, ?_⟩
        · rw [run_append, hrun]
          exact hsent
        · rcases hreason with hreason | hreason <;> simp [hreason]
      · cases htransmit
        exact ⟨⟨[], rfl, by rw [List.append_nil, hrun]⟩, htimeouts, hended⟩

/-- A round either ends the connection by one of the tests or goes on to `poll`. -/
theorem next_cases {limits : ConnectionLimits} (h : connection.next limits round = some following) :
    connection.ended = none ∧ connection.session.clock.micros ≤ round.tvNow.micros ∧
      ((connection.check limits round = some .requestTimeout ∧
          following = { (connection.tick round.tvNow).finish .requestTimeout with
            requestTimeouts := connection.requestTimeouts + 1 }) ∨
        (∃ reason, reason ≠ .requestTimeout ∧ connection.check limits round = some reason ∧
          following = (connection.tick round.tvNow).finish reason) ∨
        (connection.check limits round = none ∧
          (connection.tick round.tvNow).attend round = some following)) := by
  unfold Http2Connection.next at h
  split at h
  · rename_i henabled
    refine ⟨henabled.1, henabled.2, ?_⟩
    cases hcheck : connection.check limits round with
    | none => exact Or.inr (Or.inr ⟨rfl, by simpa [hcheck] using h⟩)
    | some reason =>
        by_cases hreason : reason = .requestTimeout
        · subst hreason
          exact Or.inl ⟨rfl, by simpa [hcheck] using h.symm⟩
        · refine Or.inr (Or.inl ⟨reason, hreason, rfl, ?_⟩)
          cases reason <;> simp_all
  · cases h

end Emme.Server
