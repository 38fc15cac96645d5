import Emme.Server.Http2Loop
import Mathlib.Tactic.Linarith
import Mathlib.Tactic.Ring

/-!
# Elapsed time

The difference of two clock readings is computed at five places. Four compute milliseconds with C's
division and are off by less than one. The fifth computes the seconds that the metrics record and
divides the microseconds by `US_PER_MS`, so it is right only when those of the two readings are the
same. `elapsed_ms_exact` says when an `int` holds the value.
-/

namespace Emme.Server

/-- `US_PER_MS`. -/
def usPerMs : Int := 1000

/-- The time since `start` in milliseconds, where `divisor` microseconds count as one. -/
def elapsedBy (divisor : Int) (now start : Timeval) : Int :=
  (now.sec - start.sec) * 1000 + (now.usec - start.usec).tdiv divisor

/-- `elapsed_ms` in `handle_http1_connection`. -/
def handleHttp1ElapsedMs (now requestStart : Timeval) : Int := elapsedBy 1000 now requestStart

/-- `elapsed_ms` in `handle_http2_connection`. -/
def handleHttp2ElapsedMs (now requestStart : Timeval) : Int := elapsedBy 1000 now requestStart

/-- `elapsed_ms` in `perform_nonblocking_ssl_accept`. -/
def sslAcceptElapsedMs (now start : Timeval) : Int := elapsedBy usPerMs now start

/-- `elapsed_ms` in `http2_client_recv_response`. -/
def clientRecvElapsedMs (now start : Timeval) : Int := elapsedBy 1000 now start

/-- `request_duration` in `handle_http1_connection`. -/
def requestDuration (requestEnd requestStart : Timeval) : ℚ :=
  (requestEnd.sec - requestStart.sec : Int) +
    ((requestEnd.usec - requestStart.usec : Int) : ℚ) / (usPerMs : ℚ)

/-- The seconds that have passed. -/
def trueSeconds (now start : Timeval) : ℚ := ((now.micros - start.micros : Int) : ℚ) / 1000000

/-- The milliseconds are less than one off the time that has passed. -/
def WithinOneMs (ms : Int) (now start : Timeval) : Prop :=
  |ms * 1000 - (now.micros - start.micros)| < 1000

/-! ## Milliseconds -/

/-- With 1000 microseconds to the millisecond the result is less than one off. -/
theorem elapsed_by_within_one_ms (now start : Timeval) :
    WithinOneMs (elapsedBy 1000 now start) now start := by
  unfold WithinOneMs elapsedBy Timeval.micros
  -- the error is the remainder of the division, whose sign is that of the dividend
  have hdiv := Int.mul_tdiv_add_tmod (now.usec - start.usec) 1000
  have hlower := Int.lt_tmod_of_pos (now.usec - start.usec) (b := 1000) (by decide)
  have hupper := Int.tmod_lt_of_pos (now.usec - start.usec) (b := 1000) (by decide)
  rw [abs_lt]
  constructor
  · omega
  · omega

/-- The value of the loop of `Emme.Server.Http2Loop` is this one, converted to `int`. -/
theorem elapsed_ms_eq (now start : Timeval) :
    elapsedMs now start = (Int32.ofInt (handleHttp2ElapsedMs now start)).toInt := rfl

/-- The conversion to `int` keeps the milliseconds of a difference that is at least a millisecond
below its limit. -/
theorem elapsed_ms_exact {now start : Timeval} (horder : start.micros ≤ now.micros)
    (hdiff : now.micros - start.micros ≤ (2 ^ 31 - 1) * 1000) :
    elapsedMs now start = handleHttp2ElapsedMs now start := by
  have hclose := elapsed_by_within_one_ms now start
  unfold WithinOneMs at hclose
  rw [abs_lt] at hclose
  rw [elapsed_ms_eq]
  exact Int32.toInt_ofInt_of_le (by unfold handleHttp2ElapsedMs; omega)
    (by unfold handleHttp2ElapsedMs; omega)

/-! ## The recorded duration -/

/-- The recorded duration is off by 999 times the difference of the microseconds, in units of a
microsecond. -/
theorem request_duration_eq (requestEnd requestStart : Timeval) :
    requestDuration requestEnd requestStart =
      trueSeconds requestEnd requestStart +
        999 * ((requestEnd.usec - requestStart.usec : Int) : ℚ) / 1000000 := by
  unfold requestDuration trueSeconds Timeval.micros usPerMs
  push_cast
  ring

/-- The duration that is recorded is the true one only if the microseconds agree. -/
theorem request_duration_exact_iff (requestEnd requestStart : Timeval) :
    requestDuration requestEnd requestStart = trueSeconds requestEnd requestStart ↔
      requestStart.usec = requestEnd.usec := by
  rw [request_duration_eq]
  constructor
  · intro h
    have hzero : ((requestEnd.usec - requestStart.usec : Int) : ℚ) = 0 := by linarith
    have hdiff := Int.cast_eq_zero.mp hzero
    omega
  · intro h
    rw [h, sub_self, Int.cast_zero, mul_zero, zero_div, add_zero]

/-- **Elapsed times are right exactly if the microseconds agree.** The milliseconds at the four
places are less than one off, and the duration passed to `metrics_record_request_duration` is the
time that has passed, exactly if the two readings have the same microseconds; the first part holds
without this. -/
theorem elapsed_times_right_iff (start finish : Timeval) :
    (WithinOneMs (handleHttp1ElapsedMs finish start) finish start ∧
      WithinOneMs (handleHttp2ElapsedMs finish start) finish start ∧
      WithinOneMs (sslAcceptElapsedMs finish start) finish start ∧
      WithinOneMs (clientRecvElapsedMs finish start) finish start ∧
      requestDuration finish start = trueSeconds finish start) ↔
      start.usec = finish.usec := by
  have hclose := elapsed_by_within_one_ms finish start
  constructor
  · rintro ⟨-, -, -, -, hduration⟩
    exact (request_duration_exact_iff finish start).mp hduration
  · intro h
    exact ⟨hclose, hclose, hclose, hclose, (request_duration_exact_iff finish start).mpr h⟩

/-- Half a second is a number of microseconds below a second. -/
theorem half_second_range : (0 : Int) ≤ 500000 ∧ (500000 : Int) < 1000000 := by decide

/-- Half a second after `Timeval.zero`. -/
def halfSecond : Timeval := ⟨0, 500000, half_second_range⟩

/-- Half a second is recorded as 500 seconds. -/
theorem half_second_recorded_wrongly :
    Timeval.zero.micros ≤ halfSecond.micros ∧
      halfSecond.micros - Timeval.zero.micros < 2 ^ 31 * 1000 ∧
      requestDuration halfSecond Timeval.zero = 500 ∧
      trueSeconds halfSecond Timeval.zero = 1 / 2 ∧
      ¬ (WithinOneMs (handleHttp1ElapsedMs halfSecond Timeval.zero) halfSecond Timeval.zero ∧
        WithinOneMs (handleHttp2ElapsedMs halfSecond Timeval.zero) halfSecond Timeval.zero ∧
        WithinOneMs (sslAcceptElapsedMs halfSecond Timeval.zero) halfSecond Timeval.zero ∧
        WithinOneMs (clientRecvElapsedMs halfSecond Timeval.zero) halfSecond Timeval.zero ∧
        requestDuration halfSecond Timeval.zero = trueSeconds halfSecond Timeval.zero) := by
  refine ⟨by decide, by decide, ?_, ?_, ?_⟩
  · unfold requestDuration halfSecond Timeval.zero usPerMs
    norm_num
  · unfold trueSeconds halfSecond Timeval.zero Timeval.micros
    norm_num
  · rintro ⟨-, -, -, -, hduration⟩
    have hsame := (request_duration_exact_iff halfSecond Timeval.zero).mp hduration
    exact absurd hsame (by decide)

end Emme.Server
