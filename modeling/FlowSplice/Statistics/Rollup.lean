import FlowSplice.Statistics.Conservation

/-! `summarize_metric_points`, and that it does not matter how samples were grouped into deltas, in
which order these were merged, or over which points they lie: the three merges count the same. -/
namespace FlowSplice.Statistics

/-- `RollupAccumulator`. -/
structure RollupAccumulator where
  bucketCount : U64 := 0
  count : U64 := 0
  sum : U64 := 0
  min : ℕ := 0
  max : ℕ := 0
  histogram : List U64 := []
deriving DecidableEq, Repr

/-- The body of the loop over the points. -/
def RollupAccumulator.add (aggregate : RollupAccumulator) (value : MetricValue) :
    RollupAccumulator where
  bucketCount := aggregate.bucketCount + Saturating.ofNat 1
  count := aggregate.count + value.count
  sum := aggregate.sum + value.sum
  min :=
    if aggregate.count.val = 0 then value.min
    else if 0 < value.count.val then Min.min aggregate.min value.min
    else aggregate.min
  max :=
    if aggregate.count.val = 0 then value.max
    else if 0 < value.count.val then Max.max aggregate.max value.max
    else aggregate.max
  histogram := mergeHistogram aggregate.histogram value.histogram

/-- A family and dimensions. -/
abbrev RollupKey := String × List (String × String)

def RollupKey.of (retainDimensions : Bool) (point : MetricPoint) : RollupKey :=
  (point.identity.metricFamily, if retainDimensions then point.identity.dimensions else [])

/-- The order of the `BTreeMap`: first the family, then the dimensions one by one. -/
def RollupKey.le (left right : RollupKey) : Bool :=
  ((compare left.1 right.1).then
    (List.compareLex (compareLex (compareOn Prod.fst) (compareOn Prod.snd)) left.2 right.2)).isLE

/-- `MetricRollup` without its two averages, which are `f64`. -/
structure MetricRollup where
  metricFamily : String
  dimensions : List (String × String)
  bucketCount : U64
  count : U64
  sum : U64
  min : ℕ
  max : ℕ
  histogram : List U64
deriving DecidableEq, Repr

def RollupAccumulator.rollup (key : RollupKey) (aggregate : RollupAccumulator) : MetricRollup where
  metricFamily := key.1
  dimensions := key.2
  bucketCount := aggregate.bucketCount
  count := aggregate.count
  sum := aggregate.sum
  min := aggregate.min
  max := aggregate.max
  histogram := aggregate.histogram

/-- The loop over the points. -/
def groupPoints (retainDimensions : Bool) (points : List MetricPoint) :
    Table RollupKey RollupAccumulator :=
  points.foldl (fun grouped point =>
    let key := RollupKey.of retainDimensions point
    grouped.insert key (((grouped.lookup key).getD {}).add point.value)) ∅

def summarizeMetricPoints (points : List MetricPoint) (retainDimensions : Bool) :
    List MetricRollup :=
  let entries := (groupPoints retainDimensions points).entries
  (entries.mergeSort fun left right => RollupKey.le left.1 right.1).map fun entry =>
    entry.2.rollup entry.1

/-- How a delta came about: by `record`, or by `merge_pending_delta`. -/
inductive Merged where
  | recorded (samples : List Sample)
  | merged (target source : Merged)

def Merged.delta : Merged → MetricDelta
  | .recorded samples =>
    samples.foldl (fun delta sample => delta.record sample.value sample.histogramSample) {}
  | .merged target source => mergePendingDelta target.delta source.delta

def Merged.samples : Merged → List Sample
  | .recorded samples => samples
  | .merged target source => target.samples ++ source.samples

/-- A point, and the deltas that `build_flush_batch` merged into it. -/
structure StoredMetric where
  bucketStartUnixSecs : ℕ
  identity : MetricIdentity
  merged : List Merged

namespace StoredMetric

def value (metric : StoredMetric) : MetricValue :=
  metric.merged.foldl (fun value merged =>
    let value := mergeDelta value merged.delta
    { value with revision := value.revision + Saturating.ofNat 1 }) emptyMetricValue

def point (metric : StoredMetric) : MetricPoint :=
  ⟨metric.bucketStartUnixSecs, metric.identity, metric.value⟩

def samples (metric : StoredMetric) : List Sample := metric.merged.flatMap Merged.samples

end StoredMetric

/-- The delta counts exactly these samples, and has no extremes where there are none. -/
structure MetricDelta.Counts (delta : MetricDelta) (samples : List Sample) : Prop where
  tally : delta.tally = sampleTally samples
  fits : HistogramFits delta.histogram
  min_eq_zero : delta.count.val = 0 → delta.min = 0
  max_eq_zero : delta.count.val = 0 → delta.max = 0

theorem sampleTally_append (samples more : List Sample) :
    sampleTally (samples ++ more) = sampleTally samples + sampleTally more := by
  unfold sampleTally
  rw [List.map_append, Tally.ofReadings_append]

theorem sampleTally_perm {samples samples' : List Sample} (h : samples.Perm samples') :
    sampleTally samples = sampleTally samples' := by
  unfold sampleTally Tally.ofReadings
  exact ((h.map _).map _).sum_eq

namespace MetricDelta.Counts
variable {delta delta' source : MetricDelta} {samples samples' more : List Sample}

theorem empty : ({} : MetricDelta).Counts [] where
  tally := tally_empty
  fits := .inl rfl
  min_eq_zero _ := rfl
  max_eq_zero _ := rfl

theorem perm (h : delta.Counts samples) (hperm : samples.Perm samples') : delta.Counts samples' where
  tally := h.tally.trans (sampleTally_perm hperm)
  fits := h.fits
  min_eq_zero := h.min_eq_zero
  max_eq_zero := h.max_eq_zero

theorem record (h : delta.Counts samples) (sample : Sample) :
    (delta.record sample.value sample.histogramSample).Counts (samples ++ [sample]) := by
  have hcounted := counted_record h.fits sample
  have htally : (delta.record sample.value sample.histogramSample).tally =
      sampleTally (samples ++ [sample]) := by
    rw [tally_record h.fits, h.tally, sampleTally_append, sampleTally_cons, sampleTally_nil,
      zero_add]
  exact ⟨htally, hcounted.histogram, fun hzero => absurd hzero hcounted.count,
    fun hzero => absurd hzero hcounted.count⟩

/-- Where nothing is counted on both sides, the merged extremes are those of the source. -/
theorem merge (h : delta.Counts samples) (hs : source.Counts more) :
    (mergePendingDelta delta source).Counts (samples ++ more) where
  tally := by rw [tally_mergePendingDelta, h.tally, hs.tally, sampleTally_append]
  fits := h.fits.merge hs.fits
  min_eq_zero hzero := by
    obtain ⟨ht, hsource⟩ := (Saturating.val_add_eq_zero u64Max_pos).mp hzero
    show (if delta.count.val = 0 then source.min else _) = 0
    rw [if_pos ht]
    exact hs.min_eq_zero hsource
  max_eq_zero hzero := by
    obtain ⟨ht, hsource⟩ := (Saturating.val_add_eq_zero u64Max_pos).mp hzero
    show (if delta.count.val = 0 then source.max else _) = 0
    rw [if_pos ht]
    exact hs.max_eq_zero hsource

/-- The samples, in any order, determine the delta. -/
theorem unique (h : delta.Counts samples) (h' : delta'.Counts samples) : delta = delta' := by
  have htally : delta.tally = delta'.tally := h.tally.trans h'.tally.symm
  have hcount : delta.count = delta'.count := congrArg Tally.count htally
  have hmin := congrArg Tally.min htally
  have hmax := congrArg Tally.max htally
  apply MetricDelta.ext
  · exact hcount
  · exact congrArg Tally.sum htally
  · by_cases hzero : delta.count.val = 0
    · rw [h.min_eq_zero hzero, h'.min_eq_zero (hcount ▸ hzero)]
    · have hzero' : ¬ delta'.count.val = 0 := hcount ▸ hzero
      simp only [MetricDelta.tally, if_neg hzero, if_neg hzero'] at hmin
      exact WithTop.coe_inj.mp hmin
  · by_cases hzero : delta.count.val = 0
    · rw [h.max_eq_zero hzero, h'.max_eq_zero (hcount ▸ hzero)]
    · have hzero' : ¬ delta'.count.val = 0 := hcount ▸ hzero
      simp only [MetricDelta.tally, if_neg hzero, if_neg hzero'] at hmax
      exact WithBot.coe_inj.mp hmax
  · have hlen : delta.histogram.length = delta'.histogram.length := congrArg Tally.width htally
    apply List.ext_getElem hlen
    intro i hi hi'
    have hcell := congrFun (congrArg Tally.cells htally) i
    simp only [MetricDelta.tally] at hcell
    rw [List.getD_eq_getElem _ _ hi, List.getD_eq_getElem _ _ hi'] at hcell
    exact hcell

end MetricDelta.Counts

namespace Merged

/-- However the samples were recorded and merged, the delta counts them. -/
theorem counts (merged : Merged) : merged.delta.Counts merged.samples := by
  induction merged with
  | recorded samples =>
    have hfold : ∀ (delta : MetricDelta) (before rest : List Sample), delta.Counts before →
        (rest.foldl (fun delta sample => delta.record sample.value sample.histogramSample)
          delta).Counts (before ++ rest) := by
      intro delta before rest hdelta
      induction rest generalizing delta before with
      | nil =>
        rw [List.append_nil]
        exact hdelta
      | cons sample rest ih =>
        have hnext := ih _ _ (hdelta.record sample)
        rw [List.append_assoc] at hnext
        exact hnext
    exact hfold {} [] samples .empty
  | merged target source iht ihs => exact iht.merge ihs

theorem delta_eq_of_perm {merged merged' : Merged} (h : merged.samples.Perm merged'.samples) :
    merged.delta = merged'.delta :=
  (merged.counts.perm h).unique merged'.counts

end Merged

namespace StoredMetric

theorem counts (metric : StoredMetric) : metric.value.counted.Counts metric.samples := by
  have hfold : ∀ (value : MetricValue) (before : List Sample) (rest : List Merged),
      value.counted.Counts before →
        (rest.foldl (fun value merged =>
          let value := mergeDelta value merged.delta
          { value with revision := value.revision + Saturating.ofNat 1 }) value).counted.Counts
            (before ++ rest.flatMap Merged.samples) := by
    intro value before rest hvalue
    induction rest generalizing value before with
    | nil => simpa using hvalue
    | cons merged rest ih =>
      have hmerged : (mergeDelta value merged.delta).counted.Counts (before ++ merged.samples) := by
        rw [counted_mergeDelta]
        exact hvalue.merge merged.counts
      have hnext := ih { mergeDelta value merged.delta with
        revision := (mergeDelta value merged.delta).revision + Saturating.ofNat 1 } _ hmerged
      rw [List.append_assoc] at hnext
      exact hnext
  exact hfold emptyMetricValue [] metric.merged .empty

end StoredMetric

/-- What the summary of these samples is, as far as a `u64` can count; without samples the extremes
are 0. -/
structure MetricDelta.Summarizes (delta : MetricDelta) (samples : List Sample) : Prop where
  count : delta.count.val = Min.min samples.length u64Max
  sum : delta.sum.val = Min.min (samples.map (·.value)).sum u64Max
  min : delta.min = (samples.map (·.value)).minimum.untopD 0
  max : delta.max = (samples.map (·.value)).maximum.unbotD 0
  histogram : delta.histogram = latencyHistogram samples

theorem MetricDelta.Counts.summarizes {delta : MetricDelta} {samples : List Sample}
    (h : delta.Counts samples) : delta.Summarizes samples := by
  have hcount : delta.count = (sampleTally samples).count := congrArg Tally.count h.tally
  have hsum : delta.sum = (sampleTally samples).sum := congrArg Tally.sum h.tally
  have hmin : delta.tally.min = (samples.map (·.value)).minimum := by
    rw [h.tally]
    unfold sampleTally
    rw [Tally.min_ofReadings, map_value_reading]
  have hmax : delta.tally.max = (samples.map (·.value)).maximum := by
    rw [h.tally]
    unfold sampleTally
    rw [Tally.max_ofReadings, map_value_reading]
  constructor
  · rw [hcount]
    unfold sampleTally
    rw [Tally.count_ofReadings, List.length_map]
    rfl
  · rw [hsum]
    unfold sampleTally
    rw [Tally.sum_ofReadings, map_value_reading]
    rfl
  · rw [← hmin]
    unfold MetricDelta.tally
    by_cases hzero : delta.count.val = 0
    · dsimp only
      rw [h.min_eq_zero hzero, if_pos hzero]
      rfl
    · dsimp only
      rw [if_neg hzero]
      rfl
  · rw [← hmax]
    unfold MetricDelta.tally
    by_cases hzero : delta.count.val = 0
    · dsimp only
      rw [h.max_eq_zero hzero, if_pos hzero]
      rfl
    · dsimp only
      rw [if_neg hzero]
      rfl
  · apply histogram_of_tally
    · exact congrArg Tally.width h.tally
    · intro i
      exact congrFun (congrArg Tally.cells h.tally) i

def RollupAccumulator.counted (aggregate : RollupAccumulator) : MetricDelta where
  count := aggregate.count
  sum := aggregate.sum
  min := aggregate.min
  max := aggregate.max
  histogram := aggregate.histogram

/-- The third merge counts like the other two. -/
theorem RollupAccumulator.counted_add (aggregate : RollupAccumulator) (value : MetricValue) :
    (aggregate.add value).counted = mergePendingDelta aggregate.counted value.counted := rfl

section Grouping
variable {retainDimensions : Bool} {key : RollupKey}

/-- The metrics that one rollup is about. -/
def StoredMetric.group (retainDimensions : Bool) (stored : List StoredMetric) (key : RollupKey) :
    List StoredMetric :=
  stored.filter fun metric => RollupKey.of retainDimensions metric.point == key

/-- The entry of a key counts the samples of the points with the key, and there is one if there is
such a point. -/
structure Grouped (retainDimensions : Bool) (stored : List StoredMetric)
    (grouped : Table RollupKey RollupAccumulator) : Prop where
  isSome : ∀ metric ∈ stored, (grouped.lookup (.of retainDimensions metric.point)).isSome
  counts : ∀ key, ((grouped.lookup key).getD {}).counted.Counts
    ((StoredMetric.group retainDimensions stored key).flatMap StoredMetric.samples)
  bucketCount : ∀ key, ((grouped.lookup key).getD {}).bucketCount =
    Saturating.ofNat (StoredMetric.group retainDimensions stored key).length

theorem Grouped.nil : Grouped retainDimensions [] ∅ where
  isSome metric h := by cases h
  counts key := .empty
  bucketCount key := Saturating.ofNat_zero.symm

theorem Grouped.add {stored : List StoredMetric} {grouped : Table RollupKey RollupAccumulator}
    (h : Grouped retainDimensions stored grouped) (metric : StoredMetric) :
    Grouped retainDimensions (stored ++ [metric])
      (grouped.insert (.of retainDimensions metric.point)
        (((grouped.lookup (.of retainDimensions metric.point)).getD {}).add metric.value)) := by
  have hgroup : ∀ key, StoredMetric.group retainDimensions (stored ++ [metric]) key =
      StoredMetric.group retainDimensions stored key ++
        if RollupKey.of retainDimensions metric.point = key then [metric] else [] := by
    intro key
    unfold StoredMetric.group
    rw [List.filter_append, List.filter_singleton]
    by_cases hkey : RollupKey.of retainDimensions metric.point = key
    · simp [hkey]
    · simp [hkey, beq_eq_false_iff_ne.mpr hkey]
  refine ⟨?_, ?_, ?_⟩
  · intro metric' hmem
    by_cases hkey : RollupKey.of retainDimensions metric'.point =
        RollupKey.of retainDimensions metric.point
    · rw [hkey, AList.lookup_insert]
      rfl
    · rw [AList.lookup_insert_ne hkey]
      rcases List.mem_append.mp hmem with hmem | hmem
      · exact h.isSome metric' hmem
      · rw [List.mem_singleton.mp hmem] at hkey
        exact absurd rfl hkey
  · intro key
    rw [hgroup key]
    by_cases hkey : RollupKey.of retainDimensions metric.point = key
    · have hadded := (h.counts key).merge metric.counts
      rw [if_pos hkey, hkey, AList.lookup_insert, List.flatMap_append]
      simpa [RollupAccumulator.counted_add] using hadded
    · rw [if_neg hkey, AList.lookup_insert_ne (Ne.symm hkey), List.append_nil]
      exact h.counts key
  · intro key
    rw [hgroup key]
    by_cases hkey : RollupKey.of retainDimensions metric.point = key
    · rw [if_pos hkey, hkey, AList.lookup_insert, List.length_append, Saturating.ofNat_add,
        ← h.bucketCount key]
      rfl
    · rw [if_neg hkey, AList.lookup_insert_ne (Ne.symm hkey), List.append_nil]
      exact h.bucketCount key

theorem grouped_groupPoints (retainDimensions : Bool) (stored : List StoredMetric) :
    Grouped retainDimensions stored
      (groupPoints retainDimensions (stored.map StoredMetric.point)) := by
  induction stored using List.reverseRecOn with
  | nil => exact .nil
  | append_singleton stored metric ih =>
    have hadd := ih.add metric
    unfold groupPoints at hadd ⊢
    rw [List.map_append, List.foldl_append]
    exact hadd

end Grouping

def MetricRollup.key (rollup : MetricRollup) : RollupKey := (rollup.metricFamily, rollup.dimensions)

def MetricRollup.counted (rollup : MetricRollup) : MetricDelta where
  count := rollup.count
  sum := rollup.sum
  min := rollup.min
  max := rollup.max
  histogram := rollup.histogram

section Summarize
variable {points : List MetricPoint} {retainDimensions : Bool} {rollup : MetricRollup}

theorem mem_summarizeMetricPoints :
    rollup ∈ summarizeMetricPoints points retainDimensions ↔
      ∃ aggregate, (groupPoints retainDimensions points).lookup rollup.key = some aggregate ∧
        rollup = aggregate.rollup rollup.key := by
  unfold summarizeMetricPoints
  rw [List.mem_map]
  constructor
  · rintro ⟨⟨key, aggregate⟩, hmem, rfl⟩
    exact ⟨aggregate, Table.lookup_eq_some.mpr (List.mem_mergeSort.mp hmem), rfl⟩
  · rintro ⟨aggregate, hlookup, hrollup⟩
    exact ⟨⟨rollup.key, aggregate⟩, List.mem_mergeSort.mpr (Table.lookup_eq_some.mp hlookup),
      hrollup.symm⟩

/-- A key has one rollup. -/
theorem nodup_summarizeMetricPoints :
    ((summarizeMetricPoints points retainDimensions).map MetricRollup.key).Nodup := by
  unfold summarizeMetricPoints
  rw [List.map_map]
  have hperm := List.mergeSort_perm (groupPoints retainDimensions points).entries
    fun left right => RollupKey.le left.1 right.1
  have hkeys := (groupPoints retainDimensions points).nodupKeys
  exact (hperm.map _).nodup_iff.mpr hkeys

end Summarize

/-- A summary is one of the samples alone: it has one rollup for each key of a point, which counts
the samples of the points with the key in whatever order, and neither the deltas nor the values
depend on how the samples came into them. -/
theorem summarized_of_merged (stored : List StoredMetric) (retainDimensions : Bool) :
    (∀ rollup ∈ summarizeMetricPoints (stored.map StoredMetric.point) retainDimensions,
      rollup.bucketCount =
        Saturating.ofNat (StoredMetric.group retainDimensions stored rollup.key).length ∧
      ∀ whole : List Sample, whole.Perm ((StoredMetric.group retainDimensions stored
          rollup.key).flatMap StoredMetric.samples) →
        rollup.counted = (Merged.recorded whole).delta ∧ rollup.counted.Summarizes whole) ∧
    (∀ metric ∈ stored,
      ∃ rollup ∈ summarizeMetricPoints (stored.map StoredMetric.point) retainDimensions,
        rollup.key = .of retainDimensions metric.point) ∧
    ((summarizeMetricPoints (stored.map StoredMetric.point) retainDimensions).map
      MetricRollup.key).Nodup ∧
    (∀ merged merged' : Merged, merged.samples.Perm merged'.samples →
      merged.delta = merged'.delta) ∧
    (∀ merged empty : Merged, empty.samples = [] →
      mergePendingDelta merged.delta empty.delta = merged.delta ∧
        mergePendingDelta empty.delta merged.delta = merged.delta) ∧
    ∀ (metric : StoredMetric) (empty : Merged), empty.samples = [] →
      mergeDelta metric.value empty.delta = metric.value := by
  have hgrouped := grouped_groupPoints retainDimensions stored
  refine ⟨?_, ?_, nodup_summarizeMetricPoints, ?_, ?_, ?_⟩
  · intro rollup hmem
    obtain ⟨aggregate, hlookup, hrollup⟩ := mem_summarizeMetricPoints.mp hmem
    have hcounts := hgrouped.counts rollup.key
    have hbucket := hgrouped.bucketCount rollup.key
    rw [hlookup] at hcounts hbucket
    have hbucketCount : rollup.bucketCount = aggregate.bucketCount := by
      rw [hrollup]
      rfl
    refine ⟨hbucketCount.trans hbucket, fun whole hperm => ?_⟩
    have hcounted : rollup.counted = aggregate.counted := by
      rw [hrollup]
      rfl
    have hwhole : rollup.counted.Counts whole := by
      rw [hcounted]
      exact hcounts.perm hperm.symm
    exact ⟨hwhole.unique (Merged.recorded whole).counts, hwhole.summarizes⟩
  · intro metric hmem
    obtain ⟨aggregate, hlookup⟩ := Option.isSome_iff_exists.mp (hgrouped.isSome metric hmem)
    exact ⟨aggregate.rollup (.of retainDimensions metric.point),
      mem_summarizeMetricPoints.mpr ⟨aggregate, hlookup, rfl⟩, rfl⟩
  · exact fun merged merged' hperm => Merged.delta_eq_of_perm hperm
  · intro merged empty hempty
    constructor
    · exact (Merged.merged merged empty).delta_eq_of_perm (by simp [Merged.samples, hempty])
    · exact (Merged.merged empty merged).delta_eq_of_perm (by simp [Merged.samples, hempty])
  · intro metric empty hempty
    have hsame : (mergeDelta metric.value empty.delta).counted = metric.value.counted := by
      have hmerged := metric.counts.merge empty.counts
      rw [hempty, List.append_nil] at hmerged
      rw [counted_mergeDelta]
      exact hmerged.unique metric.counts
    have hcounted := MetricDelta.ext_iff.mp hsame
    obtain ⟨hcount, hsum, hmin, hmax, hhistogram⟩ := hcounted
    unfold mergeDelta
    simp only [MetricValue.counted, mergeDelta] at hcount hsum hmin hmax hhistogram
    rw [hcount, hsum, hmin, hmax, hhistogram]

end FlowSplice.Statistics
