import Mathlib.Algebra.Order.Group.Nat
import Emme.Metrics.Format

/-!
# The metrics endpoint

`metrics_server_thread` answers a scrape from a buffer of 8192 bytes, an eighth of the one
`metrics_format_prometheus` prints into, and sends nothing if the answer does not fit. With the
texts of `metrics_init` it fits for every registry (`scrape_answered`).
-/

namespace Emme.Metrics

open CString Emme.Router Emme.Log Emme.Server

/-! ## One connection -/

/-- `METRICS_REQUEST_BUFFER_SIZE`. -/
def metricsRequestBufferSize : Nat := 4096

/-- `METRICS_RESPONSE_BUFFER_SIZE`. -/
def metricsResponseBufferSize : Nat := 8192

/-- The head of the answer up to the length. -/
def metricsHeadStart : Bytes :=
  ascii "HTTP/1.1 200 OK\r\nContent-Type: text/plain; version=0.0.4\r\nContent-Length: "

/-- The head of the answer. -/
def metricsHead (length : Nat) : Bytes :=
  metricsHeadStart ++ decimalText length ++ crlf ++ ascii "Connection: close\r\n\r\n"

/-- The answer to any other request. -/
def metricsNotFound : Bytes := ascii "HTTP/1.1 404 Not Found\r\n\r\n"

/-- What the only `read` leaves in the request buffer, with the terminator behind it. -/
def metricsRequest (sent : Bytes) : Bytes := sent.take (metricsRequestBufferSize - 1) ++ [0]

/-- `strstr(request_buffer, "GET /metrics") != NULL`. -/
def asksForMetrics (sent : Bytes) : Bool :=
  (strstr (metricsRequest sent) 0 (ascii "GET /metrics")).isSome

/-- What `metrics_server_thread` writes to a connection that has sent these bytes; `allocates` is
whether `metrics_format_prometheus` gets its buffer. -/
def metricsAnswer (registry : MetricsRegistry) (allocates : Bool) (sent : Bytes) : Bytes :=
  if sent = [] then []
  else if asksForMetrics sent then
    match if allocates then metricsFormatPrometheus registry else none with
    | none => []
    | some data =>
        let response := metricsHead data.length ++ data
        if 0 < response.length ∧ response.length < metricsResponseBufferSize then response else []
  else metricsNotFound

/-! ## The answer fits -/

/-- The whole text is no longer than the room of all series. -/
theorem length_exposition (registry : MetricsRegistry) : (exposition registry).length ≤ 8046 := by
  have hsum : (formatOrder.map Series.room).sum = 8046 := by decide
  rw [exposition, List.length_flatMap, ← hsum]
  exact List.sum_le_sum fun series _ => length_series_texts registry series

/-- The head is short, since the length in it has at most four digits. -/
theorem length_metrics_head {length : Nat} (h : length ≤ 8046) :
    (metricsHead length).length ≤ 101 := by
  have hdigits : (decimalText length).length ≤ 4 := by
    rw [decimalText, List.length_map, Nat.length_toDigits_le_iff (by decide) (by decide)]
    omega
  have hwords : metricsHeadStart.length = 74 ∧ crlf.length = 2 ∧
      (ascii "Connection: close\r\n\r\n").length = 21 := ⟨by decide, rfl, by decide⟩
  rw [metricsHead, List.length_append, List.length_append, List.length_append]
  omega

/-- A client reads the length of the text from the head. -/
theorem metrics_head_length (length : Nat) : contentLength (metricsHead length) = some length := by
  have hend : AtEnd metricsHeadStart := by decide
  exact hend.content_length length (ascii "Connection: close\r\n\r\n")

/-! ## Every scrape is answered -/

/-- Whatever the values of the registry are, a connection that asks for the metrics gets the whole
text behind a head that gives its length, and any other that sends something gets a 404. -/
theorem scrape_answered (registry : MetricsRegistry) (sent : Bytes) (hsent : sent ≠ []) :
    (asksForMetrics sent = true →
      ∃ text, metricsFormatPrometheus registry = some text ∧
        metricsAnswer registry true sent = metricsHead text.length ++ text ∧
        contentLength (metricsHead text.length) = some text.length) ∧
      (asksForMetrics sent = false →
        ∀ allocates, metricsAnswer registry allocates sent = metricsNotFound) := by
  constructor
  · intro hasks
    have htext := length_exposition registry
    have hhead := length_metrics_head htext
    have hfits : 0 < (metricsHead (exposition registry).length ++ exposition registry).length ∧
        (metricsHead (exposition registry).length ++ exposition registry).length <
          metricsResponseBufferSize := by
      rw [List.length_append, metricsResponseBufferSize]
      refine ⟨Nat.add_pos_left (List.length_pos_of_ne_nil ?_) _, by omega⟩
      intro hnil
      have hlength := metrics_head_length (exposition registry).length
      rw [hnil] at hlength
      cases hlength
    refine ⟨_, metrics_format_prometheus_eq registry, ?_, metrics_head_length _⟩
    simp only [metricsAnswer, if_neg hsent, hasks, if_true, metrics_format_prometheus_eq,
      if_pos hfits]
  · intro hasks allocates
    simp only [metricsAnswer, if_neg hsent, hasks, Bool.false_eq_true, if_false]

/-- A registry in which every number is as long as it can be: from the first bucket on the counts
add up to the smallest `long`. -/
def longestRegistry : MetricsRegistry where
  counters _ := Int64.minValue
  gauges _ := Int64.minValue
  histograms _ :=
    { counts := (Vector.replicate _ 0).set 0 Int64.minValue (by decide)
      sumCount := Int64.minValue
      sumTotal := .finite true (Fin.last _) (Fin.last _) }

/-- The longest text is still sent as a whole. -/
theorem longest_scrape_answered :
    ∃ text, metricsFormatPrometheus longestRegistry = some text ∧
      metricsAnswer longestRegistry true (ascii "GET /metrics HTTP/1.1\r\n\r\n") =
        metricsHead text.length ++ text := by
  obtain ⟨text, htext, hanswer, -⟩ :=
    (scrape_answered longestRegistry (ascii "GET /metrics HTTP/1.1\r\n\r\n") (by decide)).1
      (by decide)
  exact ⟨text, htext, hanswer⟩

end Emme.Metrics
