import Mathlib.Algebra.GroupWithZero.Nat
import Emme.Lib.Exposition
import Emme.Log.Format
import Emme.Server.ContentLength

/-!
# The metrics registry and its text

The counters, gauges and histograms of the registry, with the names and help texts that
`metrics_init` gives them, and `metrics_format_prometheus`, which prints them one after the other
into a buffer of fixed size. The buffer is large enough for every registry
(`metrics_format_prometheus_eq`).
-/

namespace Emme.Metrics

open CString Exposition Emme.Router Emme.Log

/-! ## Numbers as `printf` writes them -/

/-- A `double`: the finite ones have the magnitude `mantissa * 2 ^ (exponent - 1074)`. -/
inductive Double where
  | finite (negative : Bool) (mantissa : Fin (2 ^ 53)) (exponent : Fin 2046)
  | infinite (negative : Bool)
  | nan (negative : Bool)
  deriving DecidableEq, Repr

/-- The quotient, rounded to the nearest number and to an even one between two. -/
def roundedQuotient (n d : Nat) : Nat :=
  if 2 * (n % d) < d ∨ (2 * (n % d) = d ∧ n / d % 2 = 0) then n / d else n / d + 1

/-- The last digits of a number. -/
def lastDigits : Nat → Nat → Bytes
  | 0, _ => []
  | places + 1, n => lastDigits places (n / 10) ++ [lastDigit n]

/-- The sign in front of a number. -/
def signText (negative : Bool) : Bytes := if negative then [45] else []

/-- `%ld`. -/
def longText (value : Int64) : Bytes :=
  signText (value.toInt < 0) ++ decimalText value.toInt.natAbs

/-- The magnitude of a finite `double` in units of `10 ^ -places`, rounded. -/
def roundedMagnitude (places : Nat) (mantissa : Fin (2 ^ 53)) (exponent : Fin 2046) : Nat :=
  roundedQuotient (mantissa * 2 ^ exponent.1 * 10 ^ places) (2 ^ 1074)

/-- `%.nf`, with at least one place. -/
def fixedText (places : Nat) : Double → Bytes
  | .finite negative mantissa exponent =>
      let scaled := roundedMagnitude places mantissa exponent
      signText negative ++ decimalText (scaled / 10 ^ places) ++ 46 :: lastDigits places scaled
  | .infinite negative => signText negative ++ ascii "inf"
  | .nan negative => signText negative ++ ascii "nan"

/-! ## The registry -/

/-- The counters of `MetricsRegistry`. -/
inductive Counter where
  | requestsTotal
  | tlsHandshakesTotal
  | requestTimeoutsTotal
  | securityHeadersSentTotal
  | corsHeadersSentTotal
  | perIpLimitRejectedTotal
  deriving DecidableEq, Repr

/-- The gauges of `MetricsRegistry`. -/
inductive Gauge where
  | activeConnections
  | ipLimiterEntriesTotal
  | threadPoolActiveThreads
  | threadPoolQueueDepth
  | shutdownDrainActive
  | ioUringSqeDepth
  | ioUringCqeDepth
  | backendPoolActive
  | backendPoolIdle
  | backendPoolHealthy
  | healthCheckerTotalChecks
  | healthCheckerFailedChecks
  | healthCheckerHealthStatus
  | healthCheckerLastCheckTime
  | circuitBreakerState
  | circuitBreakerFailureCount
  | circuitBreakerTotalOpens
  | circuitBreakerTotalCloses
  deriving DecidableEq, Repr

/-- The histograms of `MetricsRegistry`. -/
inductive Histogram where
  | requestDurationSeconds
  | tlsHandshakeDurationSeconds
  deriving DecidableEq, Repr

/-- `MetricMetadata`, as `metrics_init` sets it. -/
structure MetricMetadata where
  name : String
  help : String
  type : String
  deriving DecidableEq, Repr

/-- The name, help text and type of a counter. -/
def Counter.metadata : Counter → MetricMetadata
  | .requestsTotal =>
      ⟨"emme_requests_total", "Total number of HTTP requests", "counter"⟩
  | .tlsHandshakesTotal =>
      ⟨"emme_tls_handshakes_total", "Total number of TLS handshakes", "counter"⟩
  | .requestTimeoutsTotal =>
      ⟨"emme_request_timeouts_total", "Total number of request timeouts", "counter"⟩
  | .securityHeadersSentTotal =>
      ⟨"emme_security_headers_sent_total", "Total number of security headers sent", "counter"⟩
  | .corsHeadersSentTotal =>
      ⟨"emme_cors_headers_sent_total", "Total number of CORS headers sent", "counter"⟩
  | .perIpLimitRejectedTotal =>
      ⟨"emme_per_ip_limit_rejected_total",
        "Total number of connections rejected due to per-IP limit", "counter"⟩

/-- The name, help text and type of a gauge. -/
def Gauge.metadata : Gauge → MetricMetadata
  | .activeConnections =>
      ⟨"emme_active_connections", "Number of active connections", "gauge"⟩
  | .ipLimiterEntriesTotal =>
      ⟨"emme_ip_limiter_entries_total",
        "Number of unique IPs currently tracked by the IP limiter", "gauge"⟩
  | .threadPoolActiveThreads =>
      ⟨"emme_thread_pool_active_threads", "Number of active threads in the pool", "gauge"⟩
  | .threadPoolQueueDepth =>
      ⟨"emme_thread_pool_queue_depth", "Depth of the thread pool queue", "gauge"⟩
  | .shutdownDrainActive =>
      ⟨"emme_shutdown_drain_active", "1 if shutdown drain is active, 0 otherwise", "gauge"⟩
  | .ioUringSqeDepth =>
      ⟨"emme_io_uring_sqe_depth", "io_uring submission queue depth", "gauge"⟩
  | .ioUringCqeDepth =>
      ⟨"emme_io_uring_cqe_depth", "io_uring completion queue depth", "gauge"⟩
  | .backendPoolActive =>
      ⟨"emme_backend_pool_active_connections", "Number of active backend connections", "gauge"⟩
  | .backendPoolIdle =>
      ⟨"emme_backend_pool_idle_connections", "Number of idle backend connections", "gauge"⟩
  | .backendPoolHealthy =>
      ⟨"emme_backend_pool_healthy_connections", "Number of healthy backend connections", "gauge"⟩
  | .healthCheckerTotalChecks =>
      ⟨"emme_health_checker_total_checks", "Total health checks performed", "gauge"⟩
  | .healthCheckerFailedChecks =>
      ⟨"emme_health_checker_failed_checks", "Total failed health checks", "gauge"⟩
  | .healthCheckerHealthStatus =>
      ⟨"emme_health_checker_health_status",
        "Backend health status (0=unknown, 1=healthy, 2=unhealthy)", "gauge"⟩
  | .healthCheckerLastCheckTime =>
      ⟨"emme_health_checker_last_check_time_seconds", "Unix timestamp of last health check",
        "gauge"⟩
  | .circuitBreakerState =>
      ⟨"emme_circuit_breaker_state", "Circuit breaker state (0=closed, 1=open, 2=half-open)",
        "gauge"⟩
  | .circuitBreakerFailureCount =>
      ⟨"emme_circuit_breaker_failure_count", "Current failure count", "gauge"⟩
  | .circuitBreakerTotalOpens =>
      ⟨"emme_circuit_breaker_total_opens", "Total times circuit breaker opened", "gauge"⟩
  | .circuitBreakerTotalCloses =>
      ⟨"emme_circuit_breaker_total_closes", "Total times circuit breaker closed", "gauge"⟩

/-- Every counter has the type of one. -/
theorem Counter.type_eq (metric : Counter) : metric.metadata.type = "counter" := by
  cases metric <;> rfl

/-- Every gauge has the type of one. -/
theorem Gauge.type_eq (metric : Gauge) : metric.metadata.type = "gauge" := by
  cases metric <;> rfl

/-- The name, help text and type of a histogram. -/
def Histogram.metadata : Histogram → MetricMetadata
  | .requestDurationSeconds =>
      ⟨"emme_request_duration_seconds", "HTTP request duration in seconds", "histogram"⟩
  | .tlsHandshakeDurationSeconds =>
      ⟨"emme_tls_handshake_duration_seconds", "TLS handshake duration in seconds", "histogram"⟩

/-- `HISTOGRAM_BUCKETS`. -/
def histogramBuckets : Nat := 14

/-- The `double` with these parts. -/
def Double.ofParts (mantissa exponent : Nat) : Double :=
  .finite false (Fin.ofNat _ mantissa) (Fin.ofNat _ exponent)

/-- `HISTOGRAM_BUCKET_BOUNDS`. -/
def histogramBucketBounds : List Double :=
  [.ofParts 1152921504606847 1014, .ofParts 5764607523034235 1014,
    .ofParts 5764607523034235 1015, .ofParts 3602879701896397 1017,
    .ofParts 3602879701896397 1018, .ofParts 3602879701896397 1019, .ofParts 1 1072,
    .ofParts 1 1073, .ofParts 1 1074, .ofParts 5 1073, .ofParts 5 1074, .ofParts 5 1075,
    .ofParts 25 1074, .ofParts 25 1075]

/-- The bounds as they are written in the source. -/
theorem bucket_bound_texts : histogramBucketBounds.map (fixedText 3) =
    [ascii "0.001", ascii "0.005", ascii "0.010", ascii "0.025", ascii "0.050", ascii "0.100",
      ascii "0.250", ascii "0.500", ascii "1.000", ascii "2.500", ascii "5.000", ascii "10.000",
      ascii "25.000", ascii "50.000"] := by
  decide +kernel

/-- `HistogramData`, whose bounds are always those of `initialize_histogram`. -/
structure HistogramData where
  counts : Vector Int64 histogramBuckets
  sumCount : Int64
  sumTotal : Double

/-- `MetricsRegistry`: the values of all series. -/
structure MetricsRegistry where
  counters : Counter → Int64
  gauges : Gauge → Int64
  histograms : Histogram → HistogramData

/-- The series of the registry. -/
inductive Series where
  | counter (metric : Counter)
  | gauge (metric : Gauge)
  | histogram (metric : Histogram)
  deriving DecidableEq, Repr

/-- The name, help text and type of a series. -/
def Series.metadata : Series → MetricMetadata
  | .counter metric => metric.metadata
  | .gauge metric => metric.metadata
  | .histogram metric => metric.metadata

/-! ## Formatting -/

/-- The first line that every formatter prints. -/
def helpText (metadata : MetricMetadata) : Bytes :=
  ascii "# HELP " ++ ascii metadata.name ++ 32 :: ascii metadata.help

/-- What `format_counter` prints; the name in the `TYPE` line is the type, and the value stands
alone. -/
def counterText (metadata : MetricMetadata) (value : Int64) : Bytes :=
  helpText metadata ++ ascii "\n# TYPE " ++ ascii metadata.type ++ ascii " counter\n" ++
    longText value ++ ascii "\n"

/-- What `format_gauge` prints. -/
def gaugeText (metadata : MetricMetadata) (value : Int64) : Bytes :=
  helpText metadata ++ ascii "\n# TYPE " ++ ascii metadata.type ++ ascii " gauge\n" ++
    longText value ++ ascii "\n"

/-- The loop over the buckets of `format_histogram`. -/
def bucketTexts (name : Bytes) : Int64 → List (Double × Int64) → List Bytes
  | _, [] => []
  | cumulative, (bound, count) :: rest =>
      (name ++ ascii "_bucket\x7ble=\"" ++ fixedText 3 bound ++ ascii "\"\x7d " ++
          longText (cumulative + count) ++ ascii "\n") ::
        bucketTexts name (cumulative + count) rest

/-- What the calls of `snprintf` in `format_histogram` print; the `TYPE` line has no name. -/
def histogramTexts (metadata : MetricMetadata) (data : HistogramData) : List Bytes :=
  let name := ascii metadata.name
  (helpText metadata ++ ascii "\n# TYPE histogram\n") ::
    bucketTexts name 0 (histogramBucketBounds.zip data.counts.toList) ++
      [name ++ ascii "_bucket\x7ble=\"+Inf\"\x7d " ++ longText data.sumCount ++ ascii "\n",
        name ++ ascii "_sum " ++ fixedText 6 data.sumTotal ++ ascii "\n",
        name ++ ascii "_count " ++ longText data.sumCount ++ ascii "\n"]

/-- What is printed for a series, call by call. -/
def seriesTexts (registry : MetricsRegistry) : Series → List Bytes
  | .counter metric => [counterText metric.metadata (registry.counters metric)]
  | .gauge metric => [gaugeText metric.metadata (registry.gauges metric)]
  | .histogram metric => histogramTexts metric.metadata (registry.histograms metric)

/-- `METRICS_BUFFER_SIZE`. -/
def metricsBufferSize : Nat := 65536

/-- `snprintf` behind the text so far. `none` is a text that is cut: `format_histogram` gives up
then, and the other formatters do not notice. -/
def appendText (buffer text : Bytes) : Option Bytes :=
  if text.length < metricsBufferSize - buffer.length then some (buffer ++ text) else none

/-- The order of the calls in `metrics_format_prometheus`. -/
def formatOrder : List Series :=
  [Series.counter .requestsTotal, Series.counter .tlsHandshakesTotal,
    Series.counter .requestTimeoutsTotal, Series.counter .securityHeadersSentTotal,
    Series.counter .corsHeadersSentTotal, Series.counter .perIpLimitRejectedTotal,
    Series.gauge .activeConnections, Series.gauge .threadPoolActiveThreads,
    Series.gauge .threadPoolQueueDepth, Series.gauge .shutdownDrainActive,
    Series.histogram .requestDurationSeconds, Series.histogram .tlsHandshakeDurationSeconds,
    Series.gauge .ioUringSqeDepth, Series.gauge .ioUringCqeDepth,
    Series.gauge .backendPoolActive, Series.gauge .backendPoolIdle,
    Series.gauge .backendPoolHealthy, Series.gauge .healthCheckerTotalChecks,
    Series.gauge .ipLimiterEntriesTotal, Series.gauge .healthCheckerFailedChecks,
    Series.gauge .healthCheckerHealthStatus, Series.gauge .healthCheckerLastCheckTime,
    Series.gauge .circuitBreakerState, Series.gauge .circuitBreakerFailureCount,
    Series.gauge .circuitBreakerTotalOpens, Series.gauge .circuitBreakerTotalCloses]

/-- `metrics_format_prometheus`, when the buffer could be allocated. -/
def metricsFormatPrometheus (registry : MetricsRegistry) : Option Bytes :=
  formatOrder.foldlM (fun buffer series => (seriesTexts registry series).foldlM appendText buffer)
    []

/-! ## The text fits -/

/-- A name of a metric that is not too long. -/
def goodName (text : Bytes) : Bool := isName text && text.length ≤ 43

/-- A text on one line that is not too long. -/
def goodHelp (text : Bytes) : Bool := text.all (· ≠ lineEnd) && text.length ≤ 57

/-- All series have names, and all their help texts fit a line. -/
theorem metadata_good (series : Series) :
    goodName (ascii series.metadata.name) = true ∧
      goodHelp (ascii series.metadata.help) = true := by
  cases series with
  | counter metric | gauge metric | histogram metric =>
      cases metric <;> exact ⟨ascii_check rfl rfl, ascii_check rfl rfl⟩

/-- A sign is at most one byte. -/
theorem length_sign_text (negative : Bool) : (signText negative).length ≤ 1 := by
  cases negative <;> decide

/-- A `long` has at most 19 digits and a sign. -/
theorem length_long_text (value : Int64) : (longText value).length ≤ 20 := by
  have hlow := value.le_toInt
  have hhigh := value.toInt_lt
  have hsign := length_sign_text (value.toInt < 0)
  have hdigits : (decimalText value.toInt.natAbs).length ≤ 19 := by
    rw [decimalText, List.length_map, Nat.length_toDigits_le_iff (by decide) (by decide)]
    omega
  rw [longText, List.length_append]
  omega

/-- As many digits as are asked for. -/
theorem length_last_digits (places n : Nat) : (lastDigits places n).length = places := by
  induction places generalizing n with
  | zero => rfl
  | succ places ih => rw [lastDigits, List.length_append, ih, List.length_singleton]

/-- Rounding adds at most one. -/
theorem rounded_quotient_le (n d : Nat) : roundedQuotient n d ≤ n / d + 1 := by
  rw [roundedQuotient]
  split
  · exact Nat.le_succ _
  · exact Nat.le_refl _

/-- The bound is stated for any exponents, which are not to be evaluated. -/
theorem rounded_quotient_bound {mantissa exponent scale a b c k : Nat}
    (hmantissa : mantissa ≤ 2 ^ a)
    (hexponent : exponent ≤ b) (hsum : a + b = c + k) (hscale : 0 < scale) :
    roundedQuotient (mantissa * 2 ^ exponent * scale) (2 ^ c) / scale ≤ 2 ^ (k + 1) := by
  have hpower : 2 ^ exponent ≤ 2 ^ b := Nat.pow_le_pow_right (by decide) hexponent
  have hquotient : mantissa * 2 ^ exponent * scale / 2 ^ c ≤ 2 ^ k * scale := by
    refine Nat.div_le_of_le_mul ?_
    calc mantissa * 2 ^ exponent * scale
        ≤ 2 ^ a * 2 ^ b * scale := Nat.mul_le_mul_right _ (Nat.mul_le_mul hmantissa hpower)
      _ = 2 ^ c * (2 ^ k * scale) := by rw [← Nat.pow_add, hsum, Nat.pow_add, Nat.mul_assoc]
  refine Nat.div_le_of_le_mul ?_
  calc roundedQuotient (mantissa * 2 ^ exponent * scale) (2 ^ c)
      ≤ mantissa * 2 ^ exponent * scale / 2 ^ c + 1 := rounded_quotient_le _ _
    _ ≤ 2 ^ k * scale + 2 ^ k * scale :=
        Nat.add_le_add hquotient (Nat.mul_pos (Nat.pow_pos (by decide)) hscale)
    _ = scale * 2 ^ (k + 1) := by
        rw [← Nat.two_mul, ← Nat.mul_assoc, ← Nat.pow_succ', Nat.mul_comm]

/-- A finite `double` is below `2 ^ 1026`. -/
theorem rounded_magnitude_le (places : Nat) (mantissa : Fin (2 ^ 53)) (exponent : Fin 2046) :
    roundedMagnitude places mantissa exponent / 10 ^ places ≤ 2 ^ (1025 + 1) :=
  rounded_quotient_bound mantissa.2.le exponent.2.le (by decide : 53 + 2046 = 1074 + 1025)
    (Nat.pow_pos (by decide))

/-- The whole part of a `double` has at most 310 digits. -/
theorem length_fixed_text (places : Nat) (value : Double) :
    (fixedText places value).length ≤ 312 + places := by
  cases value with
  | finite negative mantissa exponent =>
      have hsign := length_sign_text negative
      have hdigits : (decimalText (roundedMagnitude places mantissa exponent / 10 ^ places)).length
          ≤ 310 := by
        rw [decimalText, List.length_map, Nat.length_toDigits_le_iff (by decide) (by decide)]
        exact (rounded_magnitude_le places mantissa exponent).trans_lt (by decide +kernel)
      simp only [fixedText, List.length_append, List.length_cons, length_last_digits]
      omega
  | infinite negative =>
      have hsign := length_sign_text negative
      have hword : (ascii "inf").length = 3 := rfl
      rw [fixedText, List.length_append]
      omega
  | nan negative =>
      have hsign := length_sign_text negative
      have hword : (ascii "nan").length = 3 := rfl
      rw [fixedText, List.length_append]
      omega

/-- The most that the first line of a series takes. -/
theorem length_help_text (series : Series) : (helpText series.metadata).length ≤ 108 := by
  obtain ⟨hname, hhelp⟩ := metadata_good series
  have hname := of_decide_eq_true (Bool.and_eq_true _ _ ▸ hname).2
  have hhelp := of_decide_eq_true (Bool.and_eq_true _ _ ▸ hhelp).2
  have hword : (ascii "# HELP ").length = 7 := rfl
  simp only [helpText, List.length_append, List.length_cons]
  omega

/-- The most that is printed for a series. -/
def Series.room : Series → Nat
  | .counter _ => 153
  | .gauge _ => 153
  | .histogram _ => 2187

/-- The text of a counter or a gauge has the room of one. -/
theorem length_scalar_text (series : Series) {kind : Bytes} (hkind : kind.length ≤ 24)
    (value : Int64) :
    (helpText series.metadata ++ kind ++ longText value ++ ascii "\n").length ≤ 153 := by
  have hhelp := length_help_text series
  have hvalue := length_long_text value
  have hword : (ascii "\n").length = 1 := rfl
  simp only [List.length_append]
  omega

/-- A line for each bucket, with its bound and the number up to it. -/
theorem length_bucket_texts {name : Bytes} (hname : name.length ≤ 43) (cumulative : Int64)
    (pairs : List (Double × Int64)) (hpairs : ∀ pair ∈ pairs, (fixedText 3 pair.1).length ≤ 6) :
    (bucketTexts name cumulative pairs).flatten.length ≤ pairs.length * 85 := by
  induction pairs generalizing cumulative with
  | nil => exact Nat.zero_le _
  | cons pair pairs ih =>
      obtain ⟨bound, count⟩ := pair
      rw [List.forall_mem_cons] at hpairs
      have hrest := ih (cumulative + count) hpairs.2
      have hbound : (fixedText 3 bound).length ≤ 6 := hpairs.1
      have hcount := length_long_text (cumulative + count)
      have hwords : (ascii "_bucket\x7ble=\"").length = 12 ∧ (ascii "\"\x7d ").length = 3 ∧
          (ascii "\n").length = 1 := ⟨rfl, rfl, rfl⟩
      simp only [bucketTexts, List.flatten_cons, List.length_append, List.length_cons]
      omega

/-- The bounds of the buckets are short. -/
theorem length_bucket_bounds {bound : Double} (h : bound ∈ histogramBucketBounds) :
    (fixedText 3 bound).length ≤ 6 := by
  have hmem := List.mem_map_of_mem (f := fixedText 3) h
  rw [bucket_bound_texts] at hmem
  revert hmem
  generalize fixedText 3 bound = text
  revert text
  decide

/-- The text of a histogram has the room of one, however long its numbers are. -/
theorem length_histogram_texts (metric : Histogram) (data : HistogramData) :
    (histogramTexts metric.metadata data).flatten.length ≤ 2187 := by
  have hgood := (metadata_good (.histogram metric)).1
  have hname : (ascii metric.metadata.name).length ≤ 43 :=
    of_decide_eq_true (Bool.and_eq_true _ _ ▸ hgood).2
  have hhelp : (helpText metric.metadata).length ≤ 108 := length_help_text (.histogram metric)
  have hcount := length_long_text data.sumCount
  have hsum := length_fixed_text 6 data.sumTotal
  have hpairs : (histogramBucketBounds.zip data.counts.toList).length ≤ 14 :=
    List.length_zip.trans_le (Nat.min_le_left _ _)
  have hbuckets := length_bucket_texts hname 0 (histogramBucketBounds.zip data.counts.toList)
    fun pair hpair => length_bucket_bounds (List.of_mem_zip hpair).1
  have hwords : (ascii "\n# TYPE histogram\n").length = 18 ∧
      (ascii "_bucket\x7ble=\"+Inf\"\x7d ").length = 19 ∧ (ascii "_sum ").length = 5 ∧
      (ascii "_count ").length = 7 ∧ (ascii "\n").length = 1 := ⟨rfl, rfl, rfl, rfl, rfl⟩
  simp only [histogramTexts, List.flatten_append, List.flatten_cons, List.flatten_nil,
    List.length_append, List.length_nil, List.cons_append]
  omega

/-- No series takes more than its room, whatever its values are. -/
theorem length_series_texts (registry : MetricsRegistry) (series : Series) :
    (seriesTexts registry series).flatten.length ≤ series.room := by
  cases series with
  | counter metric =>
      rw [seriesTexts, List.flatten_singleton, counterText, List.append_assoc (helpText _),
        List.append_assoc (helpText _)]
      refine length_scalar_text (.counter metric) ?_ _
      rw [metric.type_eq]
      decide
  | gauge metric =>
      rw [seriesTexts, List.flatten_singleton, gaugeText, List.append_assoc (helpText _),
        List.append_assoc (helpText _)]
      refine length_scalar_text (.gauge metric) ?_ _
      rw [metric.type_eq]
      decide
  | histogram metric => exact length_histogram_texts metric _

/-- Texts that fit are appended one after the other. -/
theorem fold_append_text {texts : List Bytes} {buffer : Bytes}
    (h : buffer.length + texts.flatten.length < metricsBufferSize) :
    texts.foldlM appendText buffer = some (buffer ++ texts.flatten) := by
  induction texts generalizing buffer with
  | nil => rw [List.foldlM_nil, List.flatten_nil, List.append_nil]; rfl
  | cons text texts ih =>
      rw [List.flatten_cons, List.length_append] at h
      have hroom : text.length < metricsBufferSize - buffer.length := by omega
      rw [List.foldlM_cons, appendText, if_pos hroom, Option.bind_eq_bind, Option.bind_some, ih,
        List.flatten_cons, List.append_assoc]
      rw [List.length_append]
      omega

/-- What is printed for all series. -/
def exposition (registry : MetricsRegistry) : Bytes :=
  formatOrder.flatMap fun series => (seriesTexts registry series).flatten

/-- The loop over the series, from any text so far. -/
theorem fold_series (registry : MetricsRegistry) (order : List Series) {buffer : Bytes}
    (h : buffer.length + (order.map Series.room).sum < metricsBufferSize) :
    order.foldlM (fun buffer series => (seriesTexts registry series).foldlM appendText buffer)
        buffer =
      some (buffer ++ order.flatMap fun series => (seriesTexts registry series).flatten) := by
  induction order generalizing buffer with
  | nil => rw [List.foldlM_nil, List.flatMap_nil, List.append_nil]; rfl
  | cons series order ih =>
      have hseries := length_series_texts registry series
      rw [List.map_cons, List.sum_cons] at h
      rw [List.foldlM_cons, fold_append_text (by omega), Option.bind_eq_bind, Option.bind_some, ih,
        List.flatMap_cons, List.append_assoc]
      rw [List.length_append]
      omega

/-- The whole text is produced for every registry. -/
theorem metrics_format_prometheus_eq (registry : MetricsRegistry) :
    metricsFormatPrometheus registry = some (exposition registry) := by
  have hroom : ([] : Bytes).length + (formatOrder.map Series.room).sum < metricsBufferSize := by
    decide
  rw [metricsFormatPrometheus, fold_series registry formatOrder hroom, List.nil_append, exposition]

end Emme.Metrics
