import Emme.Lib.Buckets
import Emme.Metrics.Format

/-!
# Recording observations

`histogram_record` counts an observation in one bucket only, the first whose bound it does not
exceed, and `format_histogram` adds the buckets up again while it prints them. Both run under the
histogram's lock. `histogram_figures` says what the printed figures are after any observations.
-/

namespace Emme.Metrics

open CString Emme.Router Buckets

/-! ## Comparing and adding `double`s -/

/-- A finite `double` in units of `2 ^ -1074`. -/
def finiteUnits (negative : Bool) (mantissa : Fin (2 ^ 53)) (exponent : Fin 2046) : Int :=
  let magnitude : Nat := mantissa * 2 ^ exponent.1
  if negative then -magnitude else magnitude

/-- `left <= right`, which is false if one of them is not a number. -/
def Double.le : Double → Double → Bool
  | .nan _, _ => false
  | _, .nan _ => false
  | .infinite negative, .infinite negative' => negative || !negative'
  | .infinite negative, .finite .. => negative
  | .finite .., .infinite negative => !negative
  | .finite negative mantissa exponent, .finite negative' mantissa' exponent' =>
      finiteUnits negative mantissa exponent ≤ finiteUnits negative' mantissa' exponent'

/-- A mantissa has 53 bits. -/
theorem mantissa_mod_lt (mantissa : Nat) : mantissa % 2 ^ 53 < 2 ^ 53 :=
  Nat.mod_lt mantissa (Nat.two_pow_pos 53)

/-- The `double` with this mantissa, or an infinite one if the exponent is out of range. -/
def Double.ofExponent (negative : Bool) (mantissa exponent : Nat) : Double :=
  if h : exponent < 2046 then
    .finite negative ⟨mantissa % 2 ^ 53, mantissa_mod_lt mantissa⟩ ⟨exponent, h⟩
  else .infinite negative

/-- The `double` nearest to a magnitude in units of `2 ^ -1074`. -/
def Double.ofUnits (negative : Bool) (magnitude : Nat) : Double :=
  let exponent := magnitude.log2 - 52
  let mantissa := roundedQuotient magnitude (2 ^ exponent)
  if mantissa < 2 ^ 53 then .ofExponent negative mantissa exponent
  else .ofExponent negative (2 ^ 52) (exponent + 1)

/-- `left + right`, rounded to the nearest `double`; the sum of opposite infinities is the
negative NaN of the x86. -/
def Double.add : Double → Double → Double
  | .nan negative, _ => .nan negative
  | _, .nan negative => .nan negative
  | .infinite negative, .infinite negative' =>
      if negative = negative' then .infinite negative else .nan true
  | .infinite negative, .finite .. => .infinite negative
  | .finite .., .infinite negative => .infinite negative
  | .finite negative mantissa exponent, .finite negative' mantissa' exponent' =>
      let sum := finiteUnits negative mantissa exponent + finiteUnits negative' mantissa' exponent'
      if sum = 0 then .ofExponent (negative && negative') 0 0
      else .ofUnits (sum < 0) sum.natAbs

/-! ## Recording -/

/-- A histogram as `metrics_init` leaves it. -/
def initializeHistogram : HistogramData := ⟨Vector.replicate histogramBuckets 0, 0, .ofParts 0 0⟩

/-- `histogram_record`. -/
def histogramRecord (data : HistogramData) (value : Double) : HistogramData where
  counts :=
    ⟨(record (· + 1) Double.le value histogramBucketBounds data.counts.toList).toArray,
      by rw [List.size_toArray, length_record, Vector.length_toList]⟩
  sumCount := data.sumCount + 1
  sumTotal := data.sumTotal.add value

/-- A histogram after some observations. -/
def recorded (observations : List Double) : HistogramData :=
  observations.foldl histogramRecord initializeHistogram

/-- The number of observations that do not exceed a bound. -/
def countAtMost (observations : List Double) (bound : Double) : Nat :=
  observations.countP (·.le bound)

/-! ## The order of the bounds -/

/-- `<=` on `double` is transitive, also with infinities and NaN. -/
theorem Double.le_trans {a b c : Double} (hab : a.le b = true) (hbc : b.le c = true) :
    a.le c = true := by
  cases a with
  | nan => cases hab
  | infinite negative =>
      cases negative with
      | true =>
          -- the least `double`
          cases c with
          | nan => cases b <;> cases hbc
          | infinite | finite => rfl
      | false =>
          cases b with
          | nan | finite => cases hab
          | infinite negative =>
              cases negative with
              | true => cases hab
              | false => exact hbc
  | finite negative mantissa exponent =>
      cases b with
      | nan => cases hab
      | infinite negative =>
          cases negative with
          | true => cases hab
          | false =>
              cases c with
              | nan | finite => cases hbc
              | infinite negative => exact hbc
      | finite negative' mantissa' exponent' =>
          cases c with
          | nan => cases hbc
          | infinite negative => exact hbc
          | finite negative'' mantissa'' exponent'' =>
              simp only [Double.le, decide_eq_true_eq] at hab hbc ⊢
              exact Int.le_trans hab hbc

/-- The bounds of the buckets ascend. -/
theorem bounds_ascending : Ascending Double.le histogramBucketBounds := by
  have hsorted : histogramBucketBounds.Pairwise fun low high => low.le high = true := by
    decide +kernel
  exact hsorted.imp fun hle _ hvalue => Double.le_trans hvalue hle

/-- A larger bound is not exceeded by fewer observations. -/
theorem count_at_most_mono (observations : List Double) {low high : Double}
    (h : low.le high = true) : countAtMost observations low ≤ countAtMost observations high :=
  List.countP_mono_left fun _ _ hvalue => Double.le_trans hvalue h

/-! ## The figures -/

/-- The buckets after some observations, without the wrap of the counters. -/
def bucketCounts (observations : List Double) : List Nat :=
  observations.foldl
    (fun counts value => record (· + 1) Double.le value histogramBucketBounds counts)
    (List.replicate histogramBuckets 0)

/-- The running totals of the buckets are the numbers of observations up to each bound. -/
theorem totals_bucket_counts (observations : List Double) :
    totals 0 (bucketCounts observations) =
      histogramBucketBounds.map (countAtMost observations) := by
  have hempty : totals 0 (List.replicate histogramBuckets 0) =
      histogramBucketBounds.map fun _ => 0 := rfl
  rw [bucketCounts, totals_records bounds_ascending hempty]
  exact List.map_congr_left fun bound _ => Nat.zero_add _

/-- Recording counts up one of the buckets. -/
theorem histogram_record_counts {data : HistogramData} {counts : List Nat}
    (h : data.counts.toList = counts.map Int64.ofNat) (value : Double) :
    (histogramRecord data value).counts.toList =
      (record (· + 1) Double.le value histogramBucketBounds counts).map Int64.ofNat := by
  show record (· + 1) Double.le value histogramBucketBounds data.counts.toList = _
  rw [h]
  exact record_map (fun count => Int64.ofNat_add count 1) value histogramBucketBounds counts

/-- The counters after some observations. -/
theorem recorded_counts (observations : List Double) :
    (recorded observations).counts.toList = (bucketCounts observations).map Int64.ofNat ∧
      (recorded observations).sumCount = Int64.ofNat observations.length := by
  induction observations using List.reverseRecOn with
  | nil => exact ⟨rfl, rfl⟩
  | append_singleton observations value ih =>
      have hlast : recorded (observations ++ [value]) =
          histogramRecord (recorded observations) value := List.foldl_concat ..
      have hcounts : bucketCounts (observations ++ [value]) =
          record (· + 1) Double.le value histogramBucketBounds (bucketCounts observations) :=
        List.foldl_concat ..
      rw [hlast, hcounts, List.length_append, List.length_singleton]
      refine ⟨histogram_record_counts ih.1 value, ?_⟩
      show (recorded observations).sumCount + 1 = _
      rw [ih.2, Int64.ofNat_add]
      rfl

/-- A count below `2 ^ 63` is printed as it is. -/
theorem long_text_of_nat {n : Nat} (h : n < 2 ^ 63) : longText (Int64.ofNat n) = decimalText n := by
  rw [longText, Int64.toInt_ofNat_of_lt h, Int.natAbs_natCast, decide_eq_false (by omega)]
  rfl

/-- The loop over the buckets prints the running totals. -/
theorem bucket_texts_totals (name : Bytes) {figure : Double → Nat} {bounds : List Double}
    {counts : List Nat} {total : Nat} (h : totals total counts = bounds.map figure)
    (hfigure : ∀ bound ∈ bounds, figure bound < 2 ^ 63) :
    bucketTexts name (Int64.ofNat total) (bounds.zip (counts.map Int64.ofNat)) =
      bounds.map fun bound =>
        name ++ ascii "_bucket\x7ble=\"" ++ fixedText 3 bound ++ ascii "\"\x7d " ++
          decimalText (figure bound) ++ ascii "\n" := by
  induction bounds generalizing counts total with
  | nil => rfl
  | cons bound bounds ih =>
      cases counts with
      | nil => cases h
      | cons count counts =>
          rw [totals, List.map_cons, List.cons.injEq] at h
          obtain ⟨hfirst, hrest⟩ := h
          rw [List.forall_mem_cons] at hfigure
          rw [List.map_cons, List.zip_cons_cons, bucketTexts, ← Int64.ofNat_add, ih hrest hfigure.2,
            hfirst, long_text_of_nat hfigure.1, List.map_cons]

/-- The text of a histogram with these figures. -/
def histogramReport (metadata : MetricMetadata) (figure : Double → Nat) (count : Nat)
    (sumTotal : Double) : List Bytes :=
  let name := ascii metadata.name
  (helpText metadata ++ ascii "\n# TYPE histogram\n") ::
    (histogramBucketBounds.map fun bound =>
        name ++ ascii "_bucket\x7ble=\"" ++ fixedText 3 bound ++ ascii "\"\x7d " ++
          decimalText (figure bound) ++ ascii "\n") ++
      [name ++ ascii "_bucket\x7ble=\"+Inf\"\x7d " ++ decimalText count ++ ascii "\n",
        name ++ ascii "_sum " ++ fixedText 6 sumTotal ++ ascii "\n",
        name ++ ascii "_count " ++ decimalText count ++ ascii "\n"]

/-- **The printed figures.** After any observations, fewer than `2 ^ 63`, the figure of a bound is
the number of observations that do not exceed it, and the `+Inf` figure and `_count` are that of
all. The figures do not decrease from a bound to a larger one. An observation that is not a number
exceeds every bound. -/
theorem histogram_figures (metric : Histogram) (observations : List Double)
    (hlength : observations.length < 2 ^ 63) :
    histogramTexts metric.metadata (recorded observations) =
        histogramReport metric.metadata (countAtMost observations) observations.length
          (recorded observations).sumTotal ∧
      (∀ low ∈ histogramBucketBounds, ∀ high ∈ histogramBucketBounds, low.le high = true →
        countAtMost observations low ≤ countAtMost observations high) ∧
      ∀ bound ∈ histogramBucketBounds, countAtMost observations bound ≤ observations.length := by
  refine ⟨?_, fun low _ high _ h => count_at_most_mono observations h, fun bound _ =>
    List.countP_le_length⟩
  obtain ⟨hcounts, hcount⟩ := recorded_counts observations
  have hfigure : ∀ bound ∈ histogramBucketBounds, countAtMost observations bound < 2 ^ 63 :=
    fun bound _ => List.countP_le_length.trans_lt hlength
  have hbuckets := bucket_texts_totals (ascii metric.metadata.name)
    (totals_bucket_counts observations) hfigure
  rw [histogramTexts, hcounts, hcount, long_text_of_nat hlength, histogramReport, ← hbuckets]
  rfl

/-- Three requests: one on a bound, one between two bounds and one above all. -/
theorem three_requests_figures :
    [Double.ofParts 1 1073, .ofParts 3 1074, .ofParts 100 1074].length < 2 ^ 63 ∧
      histogramTexts Histogram.requestDurationSeconds.metadata
          (recorded [.ofParts 1 1073, .ofParts 3 1074, .ofParts 100 1074]) =
        histogramReport Histogram.requestDurationSeconds.metadata
          (countAtMost [.ofParts 1 1073, .ofParts 3 1074, .ofParts 100 1074]) 3
          (recorded [.ofParts 1 1073, .ofParts 3 1074, .ofParts 100 1074]).sumTotal ∧
      histogramBucketBounds.map
          (countAtMost [.ofParts 1 1073, .ofParts 3 1074, .ofParts 100 1074]) =
        [0, 0, 0, 0, 0, 0, 0, 1, 1, 1, 2, 2, 2, 2] :=
  ⟨by decide, (histogram_figures .requestDurationSeconds _ (by decide)).1, by decide +kernel⟩

end Emme.Metrics
