import FlowSplice.Statistics.System
import Mathlib.Data.List.GetD

/-! Counting samples and merging counts agree with counting all samples at once. -/
namespace FlowSplice.Statistics

/-- Batches count no histogram, and the cells of a histogram are those of its bounds. -/
def Sample.reading (sample : Sample) : Reading :=
  ⟨sample.value, sample.histogramSample.map latencyHistogramIndex⟩

def MetricDelta.tally (delta : MetricDelta) : Tally u64Max where
  count := delta.count
  sum := delta.sum
  min := if delta.count.val = 0 then ⊤ else WithTop.some delta.min
  max := if delta.count.val = 0 then ⊥ else WithBot.some delta.max
  width := delta.histogram.length
  cells := fun i => delta.histogram.getD i 0

@[simp] theorem MetricDelta.tally_empty : ({} : MetricDelta).tally = 0 := by
  apply Tally.ext <;> rfl

theorem getD_replicate_zero (n i : ℕ) : (List.replicate n (0 : U64)).getD i 0 = 0 := by
  rw [List.getD_eq_getElem?_getD, List.getElem?_replicate]
  split_ifs <;> rfl

/-- Counting one more in a cell. -/
theorem getD_modify {histogram : List U64} {cell : ℕ} (h : cell < histogram.length) (i : ℕ) :
    (histogram.modify cell (· + Saturating.ofNat 1)).getD i 0 =
      histogram.getD i 0 + if some cell = some i then Saturating.ofNat 1 else 0 := by
  rw [List.getD_eq_getElem?_getD, List.getD_eq_getElem?_getD]
  by_cases hi : cell = i
  · subst hi
    rw [List.getElem?_modify_eq, if_pos rfl, List.getElem?_eq_getElem h]
    rfl
  · have hsome : some cell ≠ some i := fun heq => hi (Option.some.inj heq)
    rw [List.getElem?_modify_ne _ _ hi, if_neg hsome, add_zero]

section Histogram
variable (target source : List U64)

theorem length_mergeHistogram :
    (mergeHistogram target source).length = max target.length source.length := by
  unfold mergeHistogram
  by_cases hlt : target.length < source.length
  · rw [if_pos hlt]
    simp only [List.length_append, List.length_zipWith, List.length_replicate, List.length_drop]
    omega
  · rw [if_neg hlt]
    simp only [List.length_append, List.length_zipWith, List.length_drop]
    omega

/-- Cells that are not there count nothing. -/
theorem getD_zipWith_drop (h : source.length ≤ target.length) (i : ℕ) :
    (List.zipWith (· + ·) target source ++ target.drop source.length).getD i 0 =
      target.getD i 0 + source.getD i 0 := by
  induction target generalizing source i with
  | nil =>
    have hsource : source = [] := List.length_eq_zero_iff.mp (Nat.le_zero.mp h)
    subst hsource
    simp
  | cons x target ih =>
    cases source with
    | nil => simp
    | cons y source =>
      have hle : source.length ≤ target.length := by simpa using h
      cases i with
      | zero => rfl
      | succ i =>
        have htail := ih source hle i
        simpa using htail

theorem getD_mergeHistogram (i : ℕ) :
    (mergeHistogram target source).getD i 0 = target.getD i 0 + source.getD i 0 := by
  unfold mergeHistogram
  by_cases hlt : target.length < source.length
  · rw [if_pos hlt]
    have hle : source.length ≤
        (target ++ List.replicate (source.length - target.length) (0 : U64)).length := by
      rw [List.length_append, List.length_replicate]
      omega
    have hpad : (target ++ List.replicate (source.length - target.length) (0 : U64)).getD i 0 =
        target.getD i 0 := by
      by_cases hi : i < target.length
      · rw [List.getD_append _ _ _ _ hi]
      · rw [List.getD_append_right _ _ _ _ (Nat.le_of_not_lt hi),
          List.getD_eq_default _ _ (Nat.le_of_not_lt hi), getD_replicate_zero]
    dsimp only
    rw [getD_zipWith_drop _ _ hle, hpad]
  · rw [if_neg hlt]
    exact getD_zipWith_drop _ _ (Nat.le_of_not_lt hlt) i

end Histogram

theorem u64Max_pos : 0 < u64Max := by decide

/-- Merging two deltas counts what both count. -/
theorem tally_mergePendingDelta (target source : MetricDelta) :
    (mergePendingDelta target source).tally = target.tally + source.tally := by
  have hzero : (target.count + source.count).val = 0 ↔
      target.count.val = 0 ∧ source.count.val = 0 := Saturating.val_add_eq_zero u64Max_pos
  apply Tally.ext
  · rfl
  · rfl
  · show (if (target.count + source.count).val = 0 then _ else _) = min _ _
    simp only [hzero, MetricDelta.tally, mergePendingDelta]
    by_cases ht : target.count.val = 0
    · by_cases hs : source.count.val = 0 <;> simp [ht, hs]
    · by_cases hs : source.count.val = 0
      · simp [ht, hs]
      · rw [if_neg ht, if_neg hs, if_neg ht, if_pos (Nat.pos_of_ne_zero hs),
          if_neg fun hboth => ht hboth.1]
        exact WithTop.coe_min _ _
  · show (if (target.count + source.count).val = 0 then _ else _) = max _ _
    simp only [hzero, MetricDelta.tally, mergePendingDelta]
    by_cases ht : target.count.val = 0
    · by_cases hs : source.count.val = 0 <;> simp [ht, hs]
    · by_cases hs : source.count.val = 0
      · simp [ht, hs]
      · rw [if_neg ht, if_neg hs, if_neg ht, if_pos (Nat.pos_of_ne_zero hs),
          if_neg fun hboth => ht hboth.1]
        exact WithBot.coe_max _ _
  · exact length_mergeHistogram _ _
  · funext i
    exact getD_mergeHistogram _ _ i

/-- A histogram is empty, or has a cell for each bound and one more. -/
def HistogramFits (histogram : List U64) : Prop :=
  histogram.length = 0 ∨ histogram.length = latencyHistogramCells

theorem HistogramFits.merge {target source : List U64} (ht : HistogramFits target)
    (hs : HistogramFits source) : HistogramFits (mergeHistogram target source) := by
  unfold HistogramFits at *
  rw [length_mergeHistogram]
  omega

theorem latencyHistogramIndex_lt (sample : ℕ) :
    latencyHistogramIndex sample < latencyHistogramCells := by
  unfold latencyHistogramIndex latencyHistogramCells
  cases h : latencyHistogramBoundsMs.findIdx? (sample ≤ ·) with
  | none => exact Nat.lt_succ_self _
  | some i =>
    have hlt := (List.findIdx?_eq_some_iff_findIdx_eq.mp h).1
    exact Nat.lt_succ_of_lt hlt

theorem tally_countOne (delta : MetricDelta) (value : ℕ) :
    (delta.countOne value).tally =
      delta.tally + Tally.one latencyHistogramCells ⟨value, none⟩ := by
  have hone : (delta.count + Saturating.ofNat 1).val = 1 ↔ delta.count.val = 0 := by
    have hle := delta.count.le
    simp only [Saturating.val_add, Saturating.val_ofNat]
    unfold u64Max at *
    omega
  have hzero : ¬ (delta.count + Saturating.ofNat 1).val = 0 := by
    simp only [Saturating.val_add, Saturating.val_ofNat]
    unfold u64Max
    omega
  apply Tally.ext
  · rfl
  · rfl
  · show (if (delta.count + Saturating.ofNat 1).val = 0 then _ else _) = min _ _
    rw [if_neg hzero]
    simp only [MetricDelta.countOne, MetricDelta.tally, Tally.one, hone]
    by_cases hd : delta.count.val = 0
    · simp [hd]
    · rw [if_neg hd, if_neg hd]
      exact WithTop.coe_min _ _
  · show (if (delta.count + Saturating.ofNat 1).val = 0 then _ else _) = max _ _
    rw [if_neg hzero]
    simp only [MetricDelta.countOne, MetricDelta.tally, Tally.one, hone]
    by_cases hd : delta.count.val = 0
    · simp [hd]
    · rw [if_neg hd, if_neg hd]
      exact WithBot.coe_max _ _
  · exact (Nat.max_zero _).symm
  · funext i
    exact (add_zero _).symm

theorem length_record_histogram {histogram : List U64} (h : HistogramFits histogram) :
    (if histogram.isEmpty then List.replicate latencyHistogramCells 0 else histogram).length =
      latencyHistogramCells := by
  by_cases hempty : histogram = []
  · rw [hempty]
    rfl
  · rw [if_neg (by simpa using hempty)]
    exact h.resolve_left fun hlen => hempty (List.length_eq_zero_iff.mp hlen)

theorem getD_record_histogram (histogram : List U64) (i : ℕ) :
    (if histogram.isEmpty then List.replicate latencyHistogramCells 0 else histogram).getD i 0 =
      histogram.getD i 0 := by
  by_cases hempty : histogram = []
  · rw [hempty]
    exact getD_replicate_zero _ i
  · rw [if_neg (by simpa using hempty)]

/-- Counting a sample adds it to what is counted. -/
theorem tally_record {delta : MetricDelta} (h : HistogramFits delta.histogram) (sample : Sample) :
    (delta.record sample.value sample.histogramSample).tally =
      delta.tally + Tally.one latencyHistogramCells sample.reading := by
  obtain ⟨value, histogramSample⟩ := sample
  cases histogramSample with
  | none => exact tally_countOne delta value
  | some sample =>
    have hcount := tally_countOne delta value
    have hlen := length_record_histogram h
    have hlt := latencyHistogramIndex_lt sample
    apply Tally.ext
    · rfl
    · rfl
    · have hmin := congrArg Tally.min hcount
      exact hmin
    · have hmax := congrArg Tally.max hcount
      exact hmax
    · show (List.modify _ _ _).length = max delta.histogram.length latencyHistogramCells
      rw [List.length_modify]
      unfold HistogramFits at h
      show (if delta.histogram.isEmpty then _ else delta.histogram).length = _
      omega
    · funext i
      show (List.modify _ _ _).getD i 0 = delta.histogram.getD i 0 +
        if some (latencyHistogramIndex sample) = some i then Saturating.ofNat 1 else 0
      rw [← getD_record_histogram delta.histogram i]
      apply getD_modify
      exact lt_of_lt_of_eq hlt hlen.symm

/-- The latency histogram of the samples: no cells before the first histogram sample. -/
def latencyHistogram (samples : List Sample) : List U64 :=
  if samples.any (·.histogramSample.isSome) then
    (List.range latencyHistogramCells).map fun i =>
      Saturating.ofNat (samples.countP fun sample =>
        sample.histogramSample.map latencyHistogramIndex == some i)
  else
    []

/-- The value counts exactly these samples, as far as a `u64` can count. -/
structure MetricValue.Describes (value : MetricValue) (samples : List Sample) : Prop where
  count : value.count.val = Min.min samples.length u64Max
  sum : value.sum.val = Min.min (samples.map (·.value)).sum u64Max
  min : (samples.map (·.value)).minimum = WithTop.some value.min
  max : (samples.map (·.value)).maximum = WithBot.some value.max
  histogram : value.histogram = latencyHistogram samples

/-- What all these samples together count. -/
def sampleTally (samples : List Sample) : Tally u64Max :=
  Tally.ofReadings latencyHistogramCells (samples.map Sample.reading)

@[simp] theorem sampleTally_nil : sampleTally [] = 0 := rfl

theorem sampleTally_cons (sample : Sample) (samples : List Sample) :
    sampleTally (sample :: samples) =
      sampleTally samples + Tally.one latencyHistogramCells sample.reading := by
  unfold sampleTally
  rw [List.map_cons, Tally.ofReadings_cons, add_comm]

theorem map_value_reading (samples : List Sample) :
    (samples.map Sample.reading).map (·.value) = samples.map (·.value) := by
  rw [List.map_map]
  rfl

theorem histogram_of_tally {histogram : List U64} {samples : List Sample}
    (hwidth : histogram.length = (sampleTally samples).width)
    (hcells : ∀ i, histogram.getD i 0 = (sampleTally samples).cells i) :
    histogram = latencyHistogram samples := by
  have hany : (samples.map Sample.reading).any (·.cell.isSome) =
      samples.any (·.histogramSample.isSome) := by
    rw [List.any_map]
    congr 1
    funext sample
    exact Option.isSome_map
  have hcount : ∀ i, (samples.map Sample.reading).countP (·.cell == some i) =
      samples.countP fun sample => sample.histogramSample.map latencyHistogramIndex == some i := by
    intro i
    rw [List.countP_map]
    rfl
  unfold sampleTally at hwidth hcells
  rw [Tally.width_ofReadings, hany] at hwidth
  unfold latencyHistogram
  by_cases hsome : samples.any (·.histogramSample.isSome) = true
  · rw [if_pos hsome] at hwidth ⊢
    apply List.ext_getElem
    · rw [hwidth, List.length_map, List.length_range]
    · intro i hi _
      have hcell := hcells i
      rw [Tally.cells_ofReadings, hcount, List.getD_eq_getElem _ _ hi] at hcell
      rw [hcell, List.getElem_map, List.getElem_range]
  · rw [if_neg hsome] at hwidth ⊢
    exact List.length_eq_zero_iff.mp hwidth

/-- A value that counts something is determined by what it counts. -/
theorem describes_of_tally {value : MetricValue} {samples : List Sample}
    (hcount : value.count.val ≠ 0) (h : value.counted.tally = sampleTally samples) :
    value.Describes samples := by
  have hmin : (sampleTally samples).min = WithTop.some value.min := by
    rw [← h]
    exact if_neg hcount
  have hmax : (sampleTally samples).max = WithBot.some value.max := by
    rw [← h]
    exact if_neg hcount
  constructor
  · have hcounted : value.count = (sampleTally samples).count := congrArg Tally.count h
    rw [hcounted]
    unfold sampleTally
    rw [Tally.count_ofReadings, List.length_map]
    rfl
  · have hsum : value.sum = (sampleTally samples).sum := congrArg Tally.sum h
    rw [hsum]
    unfold sampleTally
    rw [Tally.sum_ofReadings, map_value_reading]
    rfl
  · unfold sampleTally at hmin
    rw [Tally.min_ofReadings, map_value_reading] at hmin
    exact hmin
  · unfold sampleTally at hmax
    rw [Tally.max_ofReadings, map_value_reading] at hmax
    exact hmax
  · apply histogram_of_tally
    · exact congrArg Tally.width h
    · intro i
      exact congrFun (congrArg Tally.cells h) i

/-- Without samples nothing is counted, and only then. -/
theorem eq_nil_of_sampleTally {samples : List Sample} (h : sampleTally samples = 0) :
    samples = [] := by
  have hcount : (sampleTally samples).count.val = 0 := by
    rw [h]
    rfl
  unfold sampleTally at hcount
  rw [Tally.count_ofReadings, List.length_map, Saturating.val_ofNat] at hcount
  have hpos := u64Max_pos
  apply List.length_eq_zero_iff.mp
  omega

section Entries
variable {accumulator deltas : Accumulator} {key k : MetricKey} {delta : MetricDelta}

@[simp] theorem entry_empty : Accumulator.entry ∅ k = {} := rfl

theorem entry_insert :
    Accumulator.entry (accumulator.insert key delta) k =
      if k = key then delta else accumulator.entry k := by
  unfold Accumulator.entry
  by_cases hk : k = key
  · rw [if_pos hk, hk, AList.lookup_insert]
    rfl
  · rw [if_neg hk, AList.lookup_insert_ne hk]

/-- The delta is counted under its key. -/
theorem tally_entry_merge :
    ((accumulator.merge key delta).entry k).tally =
      (accumulator.entry k).tally + if k = key then delta.tally else 0 := by
  unfold Accumulator.merge
  rw [entry_insert]
  by_cases hk : k = key
  · rw [if_pos hk, if_pos hk, tally_mergePendingDelta, hk]
  · rw [if_neg hk, if_neg hk, add_zero]

theorem tally_entry_foldl {l : List (Sigma fun _ : MetricKey => MetricDelta)}
    (hl : l.NodupKeys) :
    (Accumulator.entry (l.foldl (fun accumulator e => Accumulator.merge accumulator e.1 e.2)
      accumulator) k).tally =
      (accumulator.entry k).tally + ((l.dlookup k).getD {}).tally := by
  induction l generalizing accumulator with
  | nil => simp
  | cons e l ih =>
    obtain ⟨hhead, htail⟩ := List.nodupKeys_cons.mp hl
    rw [List.foldl_cons, ih htail, tally_entry_merge]
    by_cases hk : k = e.1
    · subst hk
      have hnone : l.dlookup e.1 = none := List.dlookup_eq_none.mpr hhead
      rw [if_pos rfl, hnone, List.dlookup_cons_eq]
      simp
    · rw [if_neg hk, add_zero, List.dlookup_cons_ne _ _ hk]

/-- What was restored is counted again. -/
theorem tally_entry_restoreDeltas :
    ((restoreDeltas accumulator deltas).entry k).tally =
      (accumulator.entry k).tally + (deltas.entry k).tally :=
  tally_entry_foldl deltas.nodupKeys

end Entries

end FlowSplice.Statistics
