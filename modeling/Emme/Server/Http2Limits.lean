import Emme.Server.Http2Loop

/-!
# The limits of an HTTP/2 connection

The request timeout measures from the newest request; `request_timeout_iff` says in which rounds
that agrees with the age of the open streams. The limit of requests is tested between the calls of
`nghttp2_session_recv`, each of which can route several (`request_pair_routed`); it is kept as long
as each routes one (`routed_within`).
-/

namespace Emme.Server

open Execution Emme.Settings

variable {limits : ConnectionLimits} {connection following : Http2Connection} {round : LoopRound}

/-! ## Rounds -/

/-- The clock ends no connection. -/
theorem tick_ended (h : connection.ended = none) {time : Timeval} :
    (connection.tick time).ended = none := h

/-- The clock goes on. -/
theorem tick_consistent (h : connection.session.Consistent) {time : Timeval}
    (hclock : connection.session.clock.micros ≤ time.micros) :
    (connection.tick time).session.Consistent :=
  ⟨h.opened, h.arrived, fun hcount => (h.started hcount).trans hclock, h.counted⟩

/-- Every round of the loop keeps the session consistent. -/
theorem next_consistent (h : connection.session.Consistent)
    (hnext : connection.next limits round = some following) : following.session.Consistent := by
  obtain ⟨hopen, hclock, ⟨-, rfl⟩ | ⟨reason, -, -, rfl⟩ | ⟨-, hattend⟩⟩ := next_cases hnext
  · exact tick_consistent h hclock
  · exact tick_consistent h hclock
  · obtain ⟨⟨sent, -, hrun⟩, -⟩ := attend_cases (tick_ended hopen) hattend
    exact run_preserves session_next_consistent (tick_consistent h hclock) hrun

/-- At the start there is no request. -/
theorem start_consistent (now : Int) (clock : Timeval) (wantRead wantWrite : Bool) :
    (Http2Connection.start now clock wantRead wantWrite).session.Consistent where
  opened _ hentry := absurd hentry List.not_mem_nil
  arrived _ hentry := absurd hentry List.not_mem_nil
  started hcount := absurd hcount (Nat.lt_irrefl 0)
  counted := Nat.le_refl 0

/-! ## The request timeout -/

/-- The round ends the connection with the request-timeout branch. -/
def Http2Connection.TimesOut (connection following : Http2Connection) : Prop :=
  following.ended = some .requestTimeout ∧
    following.requestTimeouts = connection.requestTimeouts + 1

/-- A stream is open whose headers arrived longer ago than the limit allows. -/
def Http2Connection.Overdue (limits : ConnectionLimits) (connection : Http2Connection)
    (round : LoopRound) : Prop :=
  ∃ entry ∈ connection.session.streams,
    limits.requestTimeoutMs * 1000 < round.tvNow.micros - entry.arrival.micros

/-- One of the two tests before ends the connection. -/
def Http2Connection.Preempted (limits : ConnectionLimits) (connection : Http2Connection)
    (round : LoopRound) : Prop :=
  limits.keepaliveTimeout < round.now - connection.lastActivity ∨
    limits.maxRequestsPerConnection ≤ connection.session.requestCount

/-- The newest request has been there for longer than the limit, by the loop's own measure. -/
def Http2Connection.NewestExpired (limits : ConnectionLimits) (connection : Http2Connection)
    (round : LoopRound) : Prop :=
  0 < connection.session.requestCount ∧
    limits.requestTimeoutMs < elapsedMs round.tvNow connection.session.requestStart

/-- The newest request stands for all of them: if it has expired, the test is reached exactly if
some stream is open, and if it has not, no open stream is older than the limit. -/
def Http2Connection.NewestDecides (limits : ConnectionLimits) (connection : Http2Connection)
    (round : LoopRound) : Prop :=
  (connection.NewestExpired limits round →
      (¬ connection.Preempted limits round ↔ connection.session.streams ≠ [])) ∧
    (¬ connection.NewestExpired limits round → ∀ entry ∈ connection.session.streams,
      round.tvNow.micros - entry.arrival.micros ≤ limits.requestTimeoutMs * 1000)

/-- The test of the request timeout is met by the newest request alone, if no test before it is. -/
theorem check_request_timeout_iff (hiteration : (round.wantRead || round.wantWrite) = true) :
    connection.check limits round = some .requestTimeout ↔
      connection.NewestExpired limits round ∧ ¬ connection.Preempted limits round := by
  unfold Http2Connection.check Http2Connection.NewestExpired Http2Connection.Preempted
  simp only [hiteration, Bool.not_true, Bool.false_eq_true, if_false, not_or]
  split_ifs <;> simp_all

/-- The round ends the connection so exactly if the test is met. -/
theorem times_out_iff (hnext : connection.next limits round = some following) :
    connection.TimesOut following ↔ connection.check limits round = some .requestTimeout := by
  obtain ⟨hopen, -, ⟨hcheck, rfl⟩ | ⟨reason, hreason, hcheck, rfl⟩ | ⟨hcheck, hattend⟩⟩ :=
    next_cases hnext
  · exact iff_of_true ⟨rfl, rfl⟩ hcheck
  · refine iff_of_false (fun htimeout => hreason (Option.some.inj htimeout.1)) fun hother => ?_
    exact hreason (Option.some.inj (hcheck.symm.trans hother))
  · obtain ⟨-, -, hended⟩ := attend_cases (tick_ended hopen) hattend
    exact iff_of_false (fun htimeout => hended htimeout.1) (by simp [hcheck])

/-- Once the newest request has expired, so has every open one. -/
theorem overdue_of_newest_expired (h : connection.session.Consistent)
    (hclock : connection.session.clock.micros ≤ round.tvNow.micros)
    (hexpired : connection.NewestExpired limits round) :
    connection.Overdue limits round ↔ connection.session.streams ≠ [] := by
  constructor
  · rintro ⟨entry, hentry, -⟩ hnil
    exact absurd (hnil ▸ hentry) List.not_mem_nil
  · intro hsome
    obtain ⟨entry, hentry⟩ := List.exists_mem_of_ne_nil _ hsome
    have hage := age_of_elapsed ((h.started hexpired.1).trans hclock) hexpired.2
    have harrived := h.arrived entry hentry
    exact ⟨entry, hentry, by omega⟩

/-- In every round of every run, the request-timeout branch agrees with the age of the open
streams exactly if the newest request stands for them. -/
theorem request_timeout_iff {now : Int} {clock : Timeval} {wantRead wantWrite : Bool}
    {rounds : List LoopRound}
    (hrun : run (Http2Connection.next limits) (.start now clock wantRead wantWrite) rounds =
      some connection)
    (hiteration : (round.wantRead || round.wantWrite) = true)
    (hnext : connection.next limits round = some following) :
    (connection.TimesOut following ↔ connection.Overdue limits round) ↔
      connection.NewestDecides limits round := by
  have hconsistent : connection.session.Consistent :=
    run_preserves (fun _ _ _ => next_consistent) (start_consistent now clock wantRead wantWrite)
      hrun
  obtain ⟨-, hclock, -⟩ := next_cases hnext
  rw [times_out_iff hnext, check_request_timeout_iff hiteration]
  unfold Http2Connection.NewestDecides
  by_cases hexpired : connection.NewestExpired limits round
  · rw [overdue_of_newest_expired hconsistent hclock hexpired]
    simp only [hexpired, true_and, true_implies, not_true_eq_false, false_implies, and_true]
  · simp only [hexpired, false_and, false_implies, not_false_eq_true, true_implies, true_and,
      false_iff, Http2Connection.Overdue, not_exists, not_and, not_lt]

instance : Decidable (connection.TimesOut following) := inferInstanceAs (Decidable (_ ∧ _))

instance : Decidable (connection.Overdue limits round) :=
  inferInstanceAs (Decidable (∃ _ ∈ _, _))

instance : Decidable (connection.Preempted limits round) := inferInstanceAs (Decidable (_ ∨ _))

instance : Decidable (connection.NewestExpired limits round) :=
  inferInstanceAs (Decidable (_ ∧ _))

instance : Decidable (connection.NewestDecides limits round) :=
  inferInstanceAs (Decidable (_ ∧ _))

/-- A second for a request, as little as the configuration allows. -/
def quickLimits : ConnectionLimits := ⟨⟨60, 1000, 100⟩, 1000⟩

/-- The microseconds of a number of milliseconds. -/
theorem milli_usec_range (millis : Nat) :
    0 ≤ (millis % 1000 : Nat) * (1000 : Int) ∧ (millis % 1000 : Nat) * (1000 : Int) < 1000000 := by
  omega

/-- A time in milliseconds. -/
def Timeval.ofMillis (millis : Nat) : Timeval :=
  ⟨(millis / 1000 : Nat), (millis % 1000 : Nat) * (1000 : Int), milli_usec_range millis⟩

/-- A round in which the socket can be read. -/
def readRound (millis : Nat) (events : List SessionEvent) : LoopRound :=
  ⟨true, false, (millis / 1000 : Nat), .ofMillis millis, .ready true false, ⟨events, 0⟩, ⟨[], 0⟩,
    rfl⟩

/-- A round in which `poll` finds nothing. -/
def quietRound (millis : Nat) : LoopRound :=
  ⟨true, false, (millis / 1000 : Nat), .ofMillis millis, .idle, ⟨[], 0⟩, ⟨[], 0⟩, rfl⟩

/-- The connection of the examples, at the time of its first request. -/
def quickConnection : Http2Connection := .start 100 (.ofMillis 100000) false false

/-- A request whose response the client does not take. -/
def slowRequest : LoopRound :=
  readRound 100000 [.method 1 (.ofMillis 100000), .request 1 true]

/-- A request that is answered at once. -/
def laterRequest : LoopRound :=
  readRound 100900 [.method 3 (.ofMillis 100900), .request 3 true, .close 3]

/-- With no newer request the timeout ends the connection. -/
theorem slow_request_times_out :
    ∃ connection following,
      run (Http2Connection.next quickLimits) quickConnection [slowRequest] = some connection ∧
      connection.next quickLimits (quietRound 101200) = some following ∧
      connection.Overdue quickLimits (quietRound 101200) ∧ connection.TimesOut following := by
  obtain ⟨connection, hrun, hsome, hoverdue, hdecides⟩ : ∃ connection,
      run (Http2Connection.next quickLimits) quickConnection [slowRequest] = some connection ∧
        (connection.next quickLimits (quietRound 101200)).isSome = true ∧
        connection.Overdue quickLimits (quietRound 101200) ∧
        connection.NewestDecides quickLimits (quietRound 101200) :=
    exists_final (by decide +kernel)
  obtain ⟨following, hnext⟩ := Option.isSome_iff_exists.mp hsome
  have hagree := (request_timeout_iff hrun rfl hnext).mpr hdecides
  exact ⟨connection, following, hrun, hnext, hoverdue, hagree.mpr hoverdue⟩

/-- The second request hides the first, which is open for 1200 ms when the limit is 1000 ms. -/
theorem slow_request_hidden :
    ∃ connection following,
      run (Http2Connection.next quickLimits) quickConnection [slowRequest, laterRequest] =
        some connection ∧
      connection.next quickLimits (quietRound 101200) = some following ∧
      connection.Overdue quickLimits (quietRound 101200) ∧ following.ended = none ∧
      ¬ (connection.TimesOut following ↔ connection.Overdue quickLimits (quietRound 101200)) := by
  obtain ⟨connection, hrun, hnext, hoverdue⟩ : ∃ connection,
      run (Http2Connection.next quickLimits) quickConnection [slowRequest, laterRequest] =
          some connection ∧
        (connection.next quickLimits (quietRound 101200)).any (·.ended == none) = true ∧
        connection.Overdue quickLimits (quietRound 101200) :=
    exists_final (by decide +kernel)
  obtain ⟨following, hnext, hended⟩ := (Option.any_eq_true _ _).mp hnext
  have hopen : following.ended = none := beq_iff_eq.mp hended
  refine ⟨connection, following, hrun, hnext, hoverdue, hopen, fun hagree => ?_⟩
  have htimeout := (hagree.mpr hoverdue).1
  rw [hopen] at htimeout
  cases htimeout

-- The other way round: a connection without an open stream is ended for a request timeout.
example :
    ((run (Http2Connection.next quickLimits) quickConnection
        [laterRequest, quietRound 102000]).any fun connection =>
      connection.ended == some .requestTimeout && connection.session.streams.isEmpty) = true := by
  decide +kernel

/-! ## The limit of requests -/

/-- A call of `nghttp2_session_recv` that is made in this round routes one request at most. -/
def SingleRequest (connection : Http2Connection) (round : LoopRound) : Prop :=
  (connection.session.received round).countP SessionEvent.routes ≤ 1

instance : Decidable (SingleRequest connection round) := inferInstanceAs (Decidable (_ ≤ _))

/-- Behind the test there is room for one request. -/
theorem requests_left (hcheck : connection.check limits round = none) :
    (connection.session.requestCount : Int) < limits.maxRequestsPerConnection := by
  unfold Http2Connection.check at hcheck
  split_ifs at hcheck
  omega

/-- A round with one request at most stays within the limit: each request has been counted before
it is routed, so the test sees all that were. -/
theorem next_within (h : connection.session.Consistent)
    (hwithin : connection.session.routed ≤ limits.maxRequestsPerConnection.toNat)
    (hsingle : SingleRequest connection round)
    (hnext : connection.next limits round = some following) :
    following.session.routed ≤ limits.maxRequestsPerConnection.toNat := by
  obtain ⟨hopen, -, ⟨hcheck, rfl⟩ | ⟨reason, -, hcheck, rfl⟩ | ⟨hcheck, hattend⟩⟩ :=
    next_cases hnext
  · exact hwithin
  · exact hwithin
  · obtain ⟨⟨sent, hsent, hrun⟩, -⟩ := attend_cases (tick_ended hopen) hattend
    have hrouted : following.session.routed = connection.session.routed +
        (connection.session.received round).countP SessionEvent.routes := by
      have hall := session_run_routed hrun
      rw [List.countP_append, outgoing_not_routed hsent] at hall
      exact hall
    have hleft := requests_left hcheck
    have hcounted := h.counted
    unfold SingleRequest at hsingle
    omega

/-- A connection routes no more requests than the limit says if each call of
`nghttp2_session_recv` routes one at most. -/
theorem routed_within (limits : ConnectionLimits) (now : Int) (clock : Timeval)
    (wantRead wantWrite : Bool) (rounds : List LoopRound)
    (hsingle : Throughout (Http2Connection.next limits) SingleRequest
      (.start now clock wantRead wantWrite) rounds) :
    Always (Http2Connection.next limits)
      (fun connection => connection.session.routed ≤ limits.maxRequestsPerConnection.toNat)
      (.start now clock wantRead wantWrite) rounds := by
  let within (connection : Http2Connection) : Prop := connection.session.Consistent ∧
    connection.session.routed ≤ limits.maxRequestsPerConnection.toNat
  have hstep : ∀ connection round following, within connection → SingleRequest connection round →
      connection.next limits round = some following → within following :=
    fun _ _ _ h hround hnext => ⟨next_consistent h.1 hnext, next_within h.1 h.2 hround hnext⟩
  have hstart : within (.start now clock wantRead wantWrite) :=
    ⟨start_consistent now clock wantRead wantWrite, Nat.zero_le _⟩
  exact always_of_throughout hstep (fun _ h => h.2) hstart hsingle

/-- One request for a connection. -/
def singleLimits : ConnectionLimits := ⟨⟨60, 1, 100⟩, 1000⟩

/-- Two requests in two rounds: the second is not read any more. -/
theorem single_requests_within :
    Throughout (Http2Connection.next singleLimits) SingleRequest quickConnection
        [slowRequest, laterRequest] ∧
      ∃ connection,
        run (Http2Connection.next singleLimits) quickConnection [slowRequest, laterRequest] =
          some connection ∧ connection.ended = some .maxRequests ∧
        connection.session.routed ≤ 1 := by
  have hsingle : Throughout (Http2Connection.next singleLimits) SingleRequest quickConnection
      [slowRequest, laterRequest] := by decide +kernel
  obtain ⟨connection, hrun, hended⟩ : ∃ connection,
      run (Http2Connection.next singleLimits) quickConnection [slowRequest, laterRequest] =
          some connection ∧ connection.ended = some .maxRequests :=
    exists_final (by decide +kernel)
  have hwithin := routed_within singleLimits _ _ _ _ _ hsingle
  exact ⟨hsingle, connection, hrun, hended, hwithin _ (List.prefix_refl _) connection hrun⟩

/-- Two requests that one call of `nghttp2_session_recv` takes from the socket. -/
def requestPair : LoopRound :=
  readRound 100000 [.method 1 (.ofMillis 100000), .request 1 true,
    .method 3 (.ofMillis 100000), .request 3 true]

/-- With a limit of one request per connection both requests are routed. -/
theorem request_pair_routed :
    (∃ connection,
      run (Http2Connection.next singleLimits) quickConnection [requestPair] = some connection ∧
        connection.session.routed = 2) ∧
    ¬ Always (Http2Connection.next singleLimits)
      (fun connection => connection.session.routed ≤ singleLimits.maxRequestsPerConnection.toNat)
      quickConnection [requestPair] := by
  obtain ⟨connection, hrun, hrouted⟩ : ∃ connection,
      run (Http2Connection.next singleLimits) quickConnection [requestPair] = some connection ∧
        connection.session.routed = 2 :=
    exists_final (by decide +kernel)
  refine ⟨⟨connection, hrun, hrouted⟩, fun halways => ?_⟩
  have hwithin : connection.session.routed ≤ singleLimits.maxRequestsPerConnection.toNat :=
    halways [requestPair] (List.prefix_refl _) connection hrun
  rw [hrouted] at hwithin
  exact absurd hwithin (by decide)

end Emme.Server
