import Emme.Lib.CriticalSection
import Emme.Metrics.Histogram

/-!
# The histograms under their locks

`histogram_record` updates a histogram and `format_histogram` loads it under its mutex. Hence a
scrape prints the histogram of some observations exactly, never one that an observation has been
entered in by half (`scrapes_are_snapshots`).
-/

namespace Emme.Metrics

open Buckets CriticalSection CString Execution

/-! ## The critical sections -/

/-- What is done under the lock of a histogram. -/
inductive HistogramCall where
  | observe (value : Double)
  | scrape
  deriving DecidableEq, Repr

/-- Where the thread with the lock is: in the loop of `histogram_record` over the buckets, at the
count, at the load and at the store of the sum; or in the loop of `format_histogram` with the
cumulative count and the texts so far, or at one of its last lines. -/
inductive HistogramPoint where
  | searching (value : Double) (i : Nat)
  | counting (value : Double)
  | loadingTotal (value : Double)
  | storingTotal (total : Double)
  | printing (i : Nat) (cumulative : Int64) (texts : List Bytes)
  | printingInf (texts : List Bytes)
  | printingSum (texts : List Bytes)
  | printingCount (texts : List Bytes)
  deriving DecidableEq, Repr

/-- There is one bound for each bucket. -/
theorem length_bucket_bound_list : histogramBucketBounds.length = histogramBuckets := rfl

/-- `histogram->data.buckets[i]`. -/
def bucketBound (i : Nat) (h : i < histogramBuckets) : Double :=
  histogramBucketBounds.get ⟨i, length_bucket_bound_list ▸ h⟩

/-- One step under the lock; a scrape ends with what it has printed. -/
def histogramStep (metadata : MetricMetadata) (data : HistogramData) :
    HistogramPoint → HistogramData × (HistogramPoint ⊕ Option (List Bytes))
  | .searching value i =>
      if h : i < histogramBuckets then
        if value.le (bucketBound i h) then
          ({ data with counts := data.counts.set i (data.counts[i] + 1) }, .inl (.counting value))
        else (data, .inl (.searching value (i + 1)))
      else (data, .inl (.counting value))
  | .counting value =>
      ({ data with sumCount := data.sumCount + 1 }, .inl (.loadingTotal value))
  | .loadingTotal value => (data, .inl (.storingTotal (data.sumTotal.add value)))
  | .storingTotal total => ({ data with sumTotal := total }, .inr none)
  | .printing i cumulative texts =>
      if h : i < histogramBuckets then
        let cumulative := cumulative + data.counts[i]
        (data, .inl (.printing (i + 1) cumulative (texts ++
          [ascii metadata.name ++ ascii "_bucket\x7ble=\"" ++ fixedText 3 (bucketBound i h) ++
            ascii "\"\x7d " ++ longText cumulative ++ ascii "\n"])))
      else (data, .inl (.printingInf texts))
  | .printingInf texts =>
      (data, .inl (.printingSum (texts ++
        [ascii metadata.name ++ ascii "_bucket\x7ble=\"+Inf\"\x7d " ++ longText data.sumCount ++
          ascii "\n"])))
  | .printingSum texts =>
      (data, .inl (.printingCount (texts ++
        [ascii metadata.name ++ ascii "_sum " ++ fixedText 6 data.sumTotal ++ ascii "\n"])))
  | .printingCount texts =>
      (data, .inr (some (texts ++
        [ascii metadata.name ++ ascii "_count " ++ longText data.sumCount ++ ascii "\n"])))

/-- The two functions; `format_histogram` has printed its first lines when it takes the lock. -/
def histogramBody :
    Body Histogram HistogramData (Histogram × HistogramCall) HistogramPoint
      (Option (List Bytes)) where
  lock := Prod.fst
  enter
    | (_, .observe value) => .searching value 0
    | (metric, .scrape) =>
        .printing 0 0 [helpText metric.metadata ++ ascii "\n# TYPE histogram\n"]
  step metric := histogramStep metric.metadata

/-- What they do as a whole. -/
def histogramWhole (data : HistogramData) :
    Histogram × HistogramCall → Option (List Bytes) × HistogramData
  | (_, .observe value) => (none, histogramRecord data value)
  | (metric, .scrape) => (some (histogramTexts metric.metadata data), data)

/-! ## Where the steps end -/

section Ends

variable (metric : Histogram) (data : HistogramData)

/-- An observation ends with the increment of `sum_count`. -/
theorem counting_ends (value : Double) :
    Ends histogramBody metric data (.counting value)
      (none, { data with
        sumCount := data.sumCount + 1
        sumTotal := data.sumTotal.add value }) :=
  .proceed rfl (.proceed rfl (.release rfl))

/-- The loop over the buckets, from the `i`-th on. -/
theorem searching_ends (value : Double) {i : Nat}
    {counts : Vector Int64 histogramBuckets}
    (hcounts : counts.toList = data.counts.toList.take i ++
      record (· + 1) Double.le value (histogramBucketBounds.drop i) (data.counts.toList.drop i)) :
    Ends histogramBody metric data (.searching value i)
      (none, ⟨counts, data.sumCount + 1, data.sumTotal.add value⟩) := by
  rcases Nat.lt_or_ge i histogramBuckets with hlt | hge
  · have hin : i < data.counts.toList.length := hlt.trans_eq Vector.length_toList.symm
    have hbounds : histogramBucketBounds.drop i =
        bucketBound i hlt :: histogramBucketBounds.drop (i + 1) :=
      List.drop_eq_getElem_cons hlt
    have hdrop : data.counts.toList.drop i =
        data.counts[i] :: data.counts.toList.drop (i + 1) := by
      rw [List.drop_eq_getElem_cons hin, Vector.getElem_toList]
    rw [hbounds, hdrop, record] at hcounts
    by_cases hle : value.le (bucketBound i hlt) = true
    · have hset : counts = data.counts.set i (data.counts[i] + 1) := by
        rw [← Vector.toList_inj, Vector.toList_set, hcounts, if_pos hle,
          List.set_eq_take_append_cons_drop, if_pos hin]
      have hstep : histogramStep metric.metadata data (.searching value i) =
          ({ data with counts }, .inl (.counting value)) := by
        rw [histogramStep, dif_pos hlt, if_pos hle, hset]
      exact .proceed hstep (counting_ends metric { data with counts } value)
    · have hstep : histogramStep metric.metadata data (.searching value i) =
          (data, .inl (.searching value (i + 1))) := by
        rw [histogramStep, dif_pos hlt, if_neg hle]
      refine .proceed hstep (searching_ends value ?_)
      rw [hcounts, if_neg hle, List.take_succ_eq_append_getElem hin,
        Vector.getElem_toList, List.append_assoc]
      rfl
  · have hout : data.counts.toList.length ≤ i := Vector.length_toList.trans_le hge
    have hstep : histogramStep metric.metadata data (.searching value i) =
        (data, .inl (.counting value)) := by
      rw [histogramStep, dif_neg (Nat.not_lt.mpr hge)]
    have hsame : counts = data.counts := by
      rw [← Vector.toList_inj, hcounts, List.drop_of_length_le hge,
        List.take_of_length_le hout, List.drop_of_length_le hout]
      exact List.append_nil _
    rw [hsame]
    exact .proceed hstep (counting_ends metric data value)
termination_by histogramBuckets - i

/-- The loop that prints the buckets, from the `i`-th on. -/
theorem printing_ends (i : Nat) (cumulative : Int64) (texts : List Bytes) :
    Ends histogramBody metric data (.printing i cumulative texts)
      (some (texts ++ bucketTexts (ascii metric.metadata.name) cumulative
          ((histogramBucketBounds.zip data.counts.toList).drop i) ++
        [ascii metric.metadata.name ++ ascii "_bucket\x7ble=\"+Inf\"\x7d " ++
            longText data.sumCount ++ ascii "\n",
          ascii metric.metadata.name ++ ascii "_sum " ++ fixedText 6 data.sumTotal ++ ascii "\n",
          ascii metric.metadata.name ++ ascii "_count " ++ longText data.sumCount ++ ascii "\n"]),
        data) := by
  have hzip : (histogramBucketBounds.zip data.counts.toList).length = histogramBuckets := by
    rw [List.length_zip, Vector.length_toList]
    rfl
  rcases Nat.lt_or_ge i histogramBuckets with hlt | hge
  · have hdrop : (histogramBucketBounds.zip data.counts.toList).drop i =
        (bucketBound i hlt, data.counts[i]) ::
          (histogramBucketBounds.zip data.counts.toList).drop (i + 1) := by
      rw [List.drop_eq_getElem_cons (hlt.trans_eq hzip.symm), List.getElem_zip,
        Vector.getElem_toList]
      rfl
    have hstep : histogramStep metric.metadata data (.printing i cumulative texts) =
        (data, .inl _) := dif_pos hlt
    have hrest := printing_ends (i + 1) (cumulative + data.counts[i]) (texts ++
      [ascii metric.metadata.name ++ ascii "_bucket\x7ble=\"" ++ fixedText 3 (bucketBound i hlt) ++
        ascii "\"\x7d " ++ longText (cumulative + data.counts[i]) ++ ascii "\n"])
    rw [hdrop, bucketTexts]
    rw [List.append_assoc texts, List.singleton_append] at hrest
    exact .proceed hstep hrest
  · have hstep : histogramStep metric.metadata data (.printing i cumulative texts) =
        (data, .inl (.printingInf texts)) := dif_neg (Nat.not_lt.mpr hge)
    rw [List.drop_of_length_le (hzip.trans_le hge), bucketTexts, List.append_nil]
    refine .proceed hstep (.proceed rfl (.proceed rfl (.release ?_)))
    simp [histogramBody, histogramStep]
termination_by histogramBuckets - i

/-- Step by step, with the histogram to itself, a call does what it does as a whole. -/
theorem histogram_implements : histogramBody.Implements histogramWhole := by
  rintro data ⟨metric, call⟩
  cases call with
  | observe value =>
      refine searching_ends metric data value ?_
      simp [Vector.toList]
  | scrape =>
      exact printing_ends metric data 0 0
        [helpText metric.metadata ++ ascii "\n# TYPE histogram\n"]

end Ends

/-! ## Whole runs -/

/-- The values that were observed in a histogram. -/
def observations (metric : Histogram) (calls : List (Histogram × HistogramCall)) : List Double :=
  calls.filterMap fun call =>
    match call with
    | (metric', .observe value) => if metric' = metric then some value else none
    | (_, .scrape) => none

/-- The calls as wholes record the observations of each histogram in it. -/
theorem after_histogram_whole (data : Histogram → HistogramData)
    (calls : List (Histogram × HistogramCall)) (metric : Histogram) :
    after (histogramBody.atomically histogramWhole) data calls metric =
      (observations metric calls).foldl histogramRecord (data metric) := by
  induction calls generalizing data with
  | nil => rfl
  | cons call calls ih =>
      obtain ⟨metric', call⟩ := call
      rw [after_cons, ih]
      by_cases heq : metric' = metric
      · subst heq
        cases call <;> simp [Body.atomically, histogramBody, histogramWhole, observations]
      · cases call <;>
          simp [Body.atomically, histogramBody, histogramWhole, observations, heq, Ne.symm heq]

/-- Whatever threads take the locks of the histograms in whatever order, a scrape of a histogram
prints exactly the observations that were made in it before, with their buckets, their number and
their sum, and no observation is lost. -/
theorem scrapes_are_snapshots {labels : List (Label Histogram (Histogram × HistogramCall))}
    {s : Locked Histogram HistogramData (Histogram × HistogramCall) HistogramPoint
      (Option (List Bytes))}
    (hrun : run (Locked.next histogramBody) (.start fun _ => initializeHistogram) labels = some s)
    (metric : Histogram) :
    (s.holder metric = none → s.data metric = recorded (observations metric s.done)) ∧
      ∀ before later texts, s.history = before ++ ((metric, .scrape), some texts) :: later →
        texts = histogramTexts metric.metadata
          (recorded (observations metric (before.map Prod.fst))) := by
  have hserial := runs_serially histogram_implements hrun
  refine ⟨fun hfree => ?_, fun before later texts hhistory => ?_⟩
  · rw [hserial.free hfree, after_histogram_whole]
    rfl
  · have hresult := (trace_split (hserial.results.symm.trans hhistory)).2
    simp only [Body.atomically, histogramBody, histogramWhole, Option.some.injEq] at hresult
    rw [hresult]
    exact congrArg _ (after_histogram_whole _ _ metric)

/-- A request is recorded, and the metrics are scraped. -/
def observedThenScraped : List (Label Histogram (Histogram × HistogramCall)) :=
  .acquire 1 (.requestDurationSeconds, .observe (.ofParts 0 0)) ::
    List.replicate 4 (.step 1 .requestDurationSeconds) ++
    .acquire 2 (.requestDurationSeconds, .scrape) ::
    List.replicate 18 (.step 2 .requestDurationSeconds)

/-- The scrape reports the request that was recorded before it. -/
theorem observed_then_scraped :
    ∃ s texts, run (Locked.next histogramBody) (.start fun _ => initializeHistogram)
        observedThenScraped = some s ∧
      s.history = [((.requestDurationSeconds, .observe (.ofParts 0 0)), none),
        ((.requestDurationSeconds, .scrape), some texts)] ∧
      texts = histogramTexts Histogram.requestDurationSeconds.metadata
        (recorded [.ofParts 0 0]) := by
  obtain ⟨s, hrun, hhistory⟩ :
      ∃ s, run (Locked.next histogramBody) (.start fun _ => initializeHistogram)
          observedThenScraped = some s ∧
        s.history = [((.requestDurationSeconds, .observe (.ofParts 0 0)), none),
          ((.requestDurationSeconds, .scrape),
            some (histogramTexts Histogram.requestDurationSeconds.metadata
              (recorded [.ofParts 0 0])))] := exists_final (by decide +kernel)
  exact ⟨s, _, hrun, hhistory, (scrapes_are_snapshots hrun _).2 [_] [] _ hhistory⟩

end Emme.Metrics
