import Mathlib.Data.Rat.Defs
import Mathlib.Algebra.Field.Rat
import Emme.Metrics.Format

/-!
# Reading the metrics back

What a scraper should find in the text is every series with its value (`Exposes`). But the value of
a counter or a gauge stands on a line without its name, and the `TYPE` line of a histogram has none:
no series can be read (`series_unread`), and no text is in the format (`metrics_never_exposed`).
-/

namespace Emme.Metrics

open CString Exposition Emme.Router Emme.Log Emme.Server

/-! ## What should be read -/

/-- The value of a sample. -/
inductive Reading where
  | number (value : ℚ)
  | infinite (negative : Bool)
  | nan

/-- The factor of a sign. -/
def signFactor (negative : Bool) : ℚ := if negative then -1 else 1

/-- The texts of numbers. -/
inductive NumberText : Bytes → Reading → Prop where
  | whole (negative : Bool) (digits : Bytes) :
      digits ≠ [] → (∀ b ∈ digits, isDigit b = true) →
      NumberText (signText negative ++ digits) (.number (signFactor negative * decimal digits))
  | fraction (negative : Bool) (digits places : Bytes) :
      digits ≠ [] → (∀ b ∈ digits, isDigit b = true) → (∀ b ∈ places, isDigit b = true) →
      NumberText (signText negative ++ digits ++ 46 :: places)
        (.number (signFactor negative * (decimal (digits ++ places) / 10 ^ places.length)))
  | infinite (negative : Bool) :
      NumberText (signText negative ++ ascii "Inf") (.infinite negative)
  | plusInfinite : NumberText (ascii "+Inf") (.infinite false)
  | nan : NumberText (ascii "NaN") .nan

/-- The value of a `double`. -/
def Double.reading : Double → Reading
  | .finite negative mantissa exponent =>
      .number (signFactor negative * mantissa.1 * 2 ^ ((exponent.1 : ℤ) - 1074))
  | .infinite negative => .infinite negative
  | .nan _ => .nan

/-- The value of a `long`. -/
def longReading (value : Int64) : Reading := .number value.toInt

/-- The samples of the buckets, with the counts added up. -/
def bucketSamples (name : Bytes) : Int64 → List (Double × Int64) → List (Sample Reading)
  | _, [] => []
  | cumulative, (bound, count) :: rest =>
      ⟨name ++ ascii "_bucket", [(ascii "le", fixedText 3 bound)],
          longReading (cumulative + count)⟩ ::
        bucketSamples name (cumulative + count) rest

/-- The samples of a series. -/
def MetricsRegistry.samples (registry : MetricsRegistry) : Series → List (Sample Reading)
  | .counter metric =>
      [⟨ascii metric.metadata.name, [], longReading (registry.counters metric)⟩]
  | .gauge metric => [⟨ascii metric.metadata.name, [], longReading (registry.gauges metric)⟩]
  | .histogram metric =>
      let name := ascii metric.metadata.name
      let data := registry.histograms metric
      bucketSamples name 0 (histogramBucketBounds.zip data.counts.toList) ++
        [⟨name ++ ascii "_bucket", [(ascii "le", ascii "+Inf")], longReading data.sumCount⟩,
          ⟨name ++ ascii "_sum", [], data.sumTotal.reading⟩,
          ⟨name ++ ascii "_count", [], longReading data.sumCount⟩]

/-- The text is in the format, and every series can be read from it. -/
def Exposes (registry : MetricsRegistry) (text : Bytes) : Prop :=
  ∃ samples, Reads NumberText text samples ∧
    ∀ series, ∀ sample ∈ registry.samples series, sample ∈ samples

/-! ## The lines of the text -/

/-- The lines of the buckets. -/
def bucketLines (name : Bytes) : Int64 → List (Double × Int64) → List Bytes
  | _, [] => []
  | cumulative, (bound, count) :: rest =>
      (name ++ ascii "_bucket\x7ble=\"" ++ fixedText 3 bound ++ ascii "\"\x7d " ++
          longText (cumulative + count)) ::
        bucketLines name (cumulative + count) rest

/-- The lines of a series. -/
def seriesLines (registry : MetricsRegistry) : Series → List Bytes
  | .counter metric =>
      [helpText metric.metadata, ascii "# TYPE " ++ ascii metric.metadata.type ++ ascii " counter",
        longText (registry.counters metric)]
  | .gauge metric =>
      [helpText metric.metadata, ascii "# TYPE " ++ ascii metric.metadata.type ++ ascii " gauge",
        longText (registry.gauges metric)]
  | .histogram metric =>
      let name := ascii metric.metadata.name
      let data := registry.histograms metric
      helpText metric.metadata :: ascii "# TYPE histogram" ::
        bucketLines name 0 (histogramBucketBounds.zip data.counts.toList) ++
          [name ++ ascii "_bucket\x7ble=\"+Inf\"\x7d " ++ longText data.sumCount,
            name ++ ascii "_sum " ++ fixedText 6 data.sumTotal,
            name ++ ascii "_count " ++ longText data.sumCount]

/-- The end of a line is one byte. -/
theorem ascii_line_end : ascii "\n" = [lineEnd] := rfl

/-- The texts of the buckets are lines. -/
theorem bucket_texts_joined (name : Bytes) (cumulative : Int64) (pairs : List (Double × Int64)) :
    (bucketTexts name cumulative pairs).flatten = joined (bucketLines name cumulative pairs) := by
  induction pairs generalizing cumulative with
  | nil => rfl
  | cons pair pairs ih =>
      rw [bucketTexts, bucketLines, List.flatten_cons, joined_cons, ih, ascii_line_end,
        List.append_assoc _ [lineEnd]]
      rfl

/-- The texts of a series are lines. -/
theorem series_texts_joined (registry : MetricsRegistry) (series : Series) :
    (seriesTexts registry series).flatten = joined (seriesLines registry series) := by
  have hcounter : ascii " counter\n" = ascii " counter" ++ [lineEnd] := rfl
  have hgauge : ascii " gauge\n" = ascii " gauge" ++ [lineEnd] := rfl
  have htype : ascii "\n# TYPE " = lineEnd :: ascii "# TYPE " := rfl
  have hhistogram : ascii "\n# TYPE histogram\n" =
      lineEnd :: (ascii "# TYPE histogram" ++ [lineEnd]) := rfl
  cases series with
  | counter metric =>
      simp only [seriesTexts, seriesLines, counterText, List.flatten_singleton, joined_cons,
        joined_nil, hcounter, htype, ascii_line_end, List.append_assoc, List.cons_append,
        List.nil_append]
  | gauge metric =>
      simp only [seriesTexts, seriesLines, gaugeText, List.flatten_singleton, joined_cons,
        joined_nil, hgauge, htype, ascii_line_end, List.append_assoc, List.cons_append,
        List.nil_append]
  | histogram metric =>
      simp only [seriesTexts, seriesLines, histogramTexts, List.flatten_cons, List.flatten_append,
        List.flatten_nil, List.cons_append, joined_cons, joined_append, joined_nil,
        bucket_texts_joined, hhistogram, ascii_line_end, List.append_assoc, List.nil_append]

/-- What is scraped is the lines of all series. -/
theorem exposition_joined (registry : MetricsRegistry) :
    exposition registry = joined (formatOrder.flatMap (seriesLines registry)) := by
  rw [exposition, joined, List.flatMap_assoc]
  exact congrArg (formatOrder.flatMap ·) (funext fun series => series_texts_joined registry series)

/-! No line contains a line end. -/

/-- A digit does not end a line. -/
theorem is_digit_not_line_end {b : UInt8} (h : isDigit b = true) : b ≠ lineEnd := by
  rintro rfl
  exact absurd h (by decide)

/-- A sign does not end a line. -/
theorem sign_text_no_end (negative : Bool) : lineEnd ∉ signText negative := by
  cases negative <;> decide

/-- What `%ld` prints does not end a line. -/
theorem long_text_no_end (value : Int64) : lineEnd ∉ longText value := by
  rw [longText, List.mem_append, not_or]
  exact ⟨sign_text_no_end _, fun hin => is_digit_not_line_end (decimal_text_digits hin) rfl⟩

/-- The last digits of a number are digits. -/
theorem last_digits_digits {places n : Nat} {b : UInt8} (h : b ∈ lastDigits places n) :
    isDigit b = true := by
  induction places generalizing n with
  | zero => cases h
  | succ places ih =>
      rcases List.mem_append.mp h with h | h
      · exact ih h
      · rw [List.mem_singleton.mp h, isDigit, Bool.and_eq_true]
        exact ⟨decide_eq_true (last_digit_bounds n).1, decide_eq_true (last_digit_bounds n).2⟩

/-- What `%f` prints does not end a line. -/
theorem fixed_text_no_end (places : Nat) (value : Double) : lineEnd ∉ fixedText places value := by
  cases value with
  | finite negative mantissa exponent =>
      rw [fixedText, List.mem_append, List.mem_append, not_or, not_or, List.mem_cons, not_or]
      exact ⟨⟨sign_text_no_end _, fun hin => is_digit_not_line_end (decimal_text_digits hin) rfl⟩,
        by decide, fun hin => is_digit_not_line_end (last_digits_digits hin) rfl⟩
  | infinite negative | nan negative =>
      rw [fixedText, List.mem_append, not_or]
      exact ⟨sign_text_no_end _, by decide⟩

/-- A byte of a name does not end a line. -/
theorem name_byte_not_line_end {b : UInt8} (h : nameByte b = true) : b ≠ lineEnd := by
  rintro rfl
  exact absurd h (by decide)

/-- A name consists of the bytes that names may have. -/
theorem is_name_bytes {name : Bytes} (h : isName name = true) {b : UInt8} (hb : b ∈ name) :
    nameByte b = true := by
  cases name with
  | nil => cases hb
  | cons c name =>
      rw [isName, Bool.and_eq_true] at h
      rcases List.mem_cons.mp hb with rfl | hb
      · rw [nameByte, h.1, Bool.true_or]
      · exact List.all_eq_true.mp h.2 b hb

/-- The name of a series is a metric name. -/
theorem series_name (series : Series) : isName (ascii series.metadata.name) = true :=
  (Bool.and_eq_true _ _ ▸ (metadata_good series).1).1

/-- The name of a series does not end a line. -/
theorem name_no_end (series : Series) : lineEnd ∉ ascii series.metadata.name :=
  fun hin => name_byte_not_line_end (is_name_bytes (series_name series) hin) rfl

/-- The `# HELP` text of a series does not end a line. -/
theorem help_text_no_end (series : Series) : lineEnd ∉ helpText series.metadata := by
  have hall := (Bool.and_eq_true _ _ ▸ (metadata_good series).2).1
  have hhelp : lineEnd ∉ ascii series.metadata.help := fun hin =>
    absurd rfl (of_decide_eq_true (List.all_eq_true.mp hall _ hin))
  rw [helpText, List.mem_append, List.mem_append, not_or, not_or, List.mem_cons, not_or]
  exact ⟨⟨by decide, name_no_end series⟩, by decide, hhelp⟩

/-- None of the lines of the buckets has an end inside. -/
theorem bucket_lines_no_end {name : Bytes} (hname : lineEnd ∉ name) (cumulative : Int64)
    (pairs : List (Double × Int64)) :
    ∀ line ∈ bucketLines name cumulative pairs, lineEnd ∉ line := by
  induction pairs generalizing cumulative with
  | nil => exact List.forall_mem_nil _
  | cons pair pairs ih =>
      rw [bucketLines, List.forall_mem_cons]
      refine ⟨?_, ih _⟩
      simp only [List.mem_append, not_or]
      exact ⟨⟨⟨⟨hname, by decide⟩, fixed_text_no_end _ _⟩, by decide⟩, long_text_no_end _⟩

/-- None of the lines of a series has an end inside. -/
theorem series_lines_no_end (registry : MetricsRegistry) (series : Series) :
    ∀ line ∈ seriesLines registry series, lineEnd ∉ line := by
  cases series with
  | counter metric =>
      simp only [seriesLines, List.forall_mem_cons, metric.type_eq]
      exact ⟨help_text_no_end (.counter metric), by decide, long_text_no_end _,
        List.forall_mem_nil _⟩
  | gauge metric =>
      simp only [seriesLines, List.forall_mem_cons, metric.type_eq]
      exact ⟨help_text_no_end (.gauge metric), by decide, long_text_no_end _,
        List.forall_mem_nil _⟩
  | histogram metric =>
      have hname := name_no_end (.histogram metric)
      simp only [seriesLines, List.cons_append, List.forall_mem_cons, List.forall_mem_append]
      refine ⟨help_text_no_end (.histogram metric), by decide, bucket_lines_no_end hname _ _,
        ?_, ?_, ?_, List.forall_mem_nil _⟩
      · simp only [List.mem_append, not_or]
        exact ⟨⟨hname, by decide⟩, long_text_no_end _⟩
      · simp only [List.mem_append, not_or]
        exact ⟨⟨hname, by decide⟩, fixed_text_no_end _ _⟩
      · simp only [List.mem_append, not_or]
        exact ⟨⟨hname, by decide⟩, long_text_no_end _⟩

/-! ## What cannot be read -/

/-- A number has at least one digit. -/
theorem decimal_text_ne_nil (n : Nat) : decimalText n ≠ [] := by
  rw [decimalText, Ne, List.map_eq_nil_iff]
  exact Nat.toDigits_ne_nil

section Unread

variable {V : Type} {Number : Bytes → V → Prop}

/-- A number is not a line: no name starts with a digit or a sign. -/
theorem long_text_unread (value : Int64) (found : Option (Sample V)) :
    ¬ Line Number (longText value) found := by
  intro hline
  obtain ⟨b, rest, heq, hb⟩ : ∃ b rest, longText value = b :: rest ∧
      (b = 45 ∨ isDigit b = true) := by
    cases hdigits : decimalText value.toInt.natAbs with
    | nil => exact absurd hdigits (decimal_text_ne_nil _)
    | cons b rest =>
        have hb : isDigit b = true := decimal_text_digits (hdigits ▸ List.mem_cons_self)
        by_cases hneg : value.toInt < 0
        · refine ⟨45, b :: rest, ?_, .inl rfl⟩
          rw [longText, hdigits, decide_eq_true hneg]
          rfl
        · refine ⟨b, rest, ?_, .inr hb⟩
          rw [longText, hdigits, decide_eq_false hneg]
          rfl
  rw [heq] at hline
  rcases hb with rfl | hb
  · exact absurd hline.head (by decide)
  · simp only [isDigit, Bool.and_eq_true, decide_eq_true_eq] at hb
    rcases hline.head with rfl | hstart
    · exact absurd hb.1 (by decide)
    · simp only [nameStart, Bool.or_eq_true, Bool.and_eq_true, decide_eq_true_eq] at hstart
      grind

/-- A `# TYPE` line without a name is not in the format. -/
theorem histogram_type_unread (found : Option (Sample V)) :
    ¬ Line Number (ascii "# TYPE histogram") found := by
  intro hline
  have hfront : ascii "# TYPE histogram" = ascii "# TYPE " ++ ascii "histogram" := rfl
  rw [hfront] at hline
  exact absurd hline.type_spaced (by decide)

/-- Every series has a line that cannot be read, however numbers are read. -/
theorem series_unread (registry : MetricsRegistry) (series : Series) :
    ∃ line ∈ seriesLines registry series, ∀ found, ¬ Line Number line found := by
  cases series with
  | counter metric | gauge metric =>
      exact ⟨_, List.mem_cons_of_mem _ (List.mem_cons_of_mem _ List.mem_cons_self),
        long_text_unread _⟩
  | histogram metric =>
      exact ⟨_, List.mem_cons_of_mem _ List.mem_cons_self, histogram_type_unread⟩

/-- The text is not in the format. -/
theorem exposition_unread (registry : MetricsRegistry) (samples : List (Sample V)) :
    ¬ Reads Number (exposition registry) samples := by
  obtain ⟨line, hline, hbad⟩ : ∃ line ∈ seriesLines registry (.counter .requestsTotal),
      ∀ found, ¬ Line Number line found := series_unread registry _
  rw [exposition_joined]
  refine not_reads_of_line ?_ (List.mem_flatMap.mpr ⟨_, List.mem_cons_self, hline⟩) hbad samples
  intro line hline
  obtain ⟨series, -, hline⟩ := List.mem_flatMap.mp hline
  exact series_lines_no_end registry series line hline

end Unread

/-- Whatever the registry holds, a text is produced, and it is not in the format. -/
theorem metrics_never_exposed (registry : MetricsRegistry) :
    ∃ text, metricsFormatPrometheus registry = some text ∧
      (∀ samples, ¬ Reads NumberText text samples) ∧ ¬ Exposes registry text := by
  refine ⟨exposition registry, metrics_format_prometheus_eq registry,
    exposition_unread registry, ?_⟩
  rintro ⟨samples, hreads, -⟩
  exact exposition_unread registry samples hreads

/-- The registry after `metrics_init`. -/
def freshRegistry : MetricsRegistry where
  counters _ := 0
  gauges _ := 0
  histograms _ := ⟨.replicate _ 0, 0, .ofParts 0 0⟩

/-- The third line of the first text the server can produce is the number of requests, without a
name. -/
theorem fresh_registry_unread :
    ∃ text, metricsFormatPrometheus freshRegistry = some text ∧
      ascii "# HELP emme_requests_total Total number of HTTP requests\n# TYPE counter counter\n0\n"
        <+: text ∧
      ¬ Exposes freshRegistry text := by
  refine ⟨exposition freshRegistry, metrics_format_prometheus_eq freshRegistry, ?_, ?_⟩
  · exact ⟨_, rfl⟩
  · rintro ⟨samples, hreads, -⟩
    exact exposition_unread freshRegistry samples hreads

end Emme.Metrics
