import FlowSplice.Statistics.Counting
import Mathlib.Tactic.Abel

/-! Every recorded sample is counted once: in a batch, in the accumulator, in a call of
`flush_and_stage`, or in the metric table. -/
namespace FlowSplice.Statistics

section Lawful

/-- A delta that counts something. -/
structure MetricDelta.Counted (delta : MetricDelta) : Prop where
  count : delta.count.val ≠ 0
  histogram : HistogramFits delta.histogram

theorem count_mergePendingDelta {target source : MetricDelta} (h : source.count.val ≠ 0) :
    (mergePendingDelta target source).count.val ≠ 0 := by
  have hzero : (target.count + source.count).val = 0 ↔
      target.count.val = 0 ∧ source.count.val = 0 := Saturating.val_add_eq_zero u64Max_pos
  intro hsum
  exact h (hzero.mp hsum).2

theorem MetricDelta.Counted.merge {target source : MetricDelta}
    (ht : HistogramFits target.histogram) (hs : source.Counted) :
    (mergePendingDelta target source).Counted where
  count := count_mergePendingDelta hs.count
  histogram := HistogramFits.merge ht hs.histogram

theorem histogramFits_nil : HistogramFits [] := .inl rfl

theorem count_countOne (delta : MetricDelta) (value : ℕ) :
    (delta.countOne value).count.val ≠ 0 := by
  show min (delta.count.val + min 1 u64Max) u64Max ≠ 0
  unfold u64Max
  omega

theorem counted_record {delta : MetricDelta} (h : HistogramFits delta.histogram) (sample : Sample) :
    (delta.record sample.value sample.histogramSample).Counted := by
  obtain ⟨value, histogramSample⟩ := sample
  cases histogramSample with
  | none => exact ⟨count_countOne delta value, h⟩
  | some sample =>
    refine ⟨count_countOne delta value, .inr ?_⟩
    show (List.modify _ _ _).length = _
    rw [List.length_modify]
    exact length_record_histogram h

/-- Every entry counts something. -/
def Accumulator.Counted (accumulator : Accumulator) : Prop :=
  ∀ key delta, accumulator.lookup key = some delta → delta.Counted

variable {accumulator deltas : Accumulator} {key : MetricKey} {delta : MetricDelta}

theorem Accumulator.Counted.entry (h : accumulator.Counted) (key : MetricKey) :
    HistogramFits (accumulator.entry key).histogram := by
  unfold Accumulator.entry
  cases hlookup : accumulator.lookup key with
  | none => exact histogramFits_nil
  | some delta => exact (h key delta hlookup).histogram

theorem Accumulator.Counted.insert (h : accumulator.Counted) (hdelta : delta.Counted) :
    Accumulator.Counted (accumulator.insert key delta) := by
  intro key' delta' hlookup
  rcases Table.lookup_insert_cases hlookup with ⟨-, rfl⟩ | ⟨-, hold⟩
  · exact hdelta
  · exact h key' delta' hold

theorem Accumulator.Counted.merge (h : accumulator.Counted) (hdelta : delta.Counted) :
    Accumulator.Counted (accumulator.merge key delta) :=
  h.insert (MetricDelta.Counted.merge (h.entry key) hdelta)

theorem Accumulator.Counted.restoreDeltas (h : accumulator.Counted) (hdeltas : deltas.Counted) :
    Accumulator.Counted (restoreDeltas accumulator deltas) := by
  have hentries : ∀ e ∈ deltas.entries, e.2.Counted :=
    fun e he => hdeltas e.1 e.2 (Table.lookup_eq_some.mpr he)
  unfold Statistics.restoreDeltas
  generalize deltas.entries = l at hentries
  induction l generalizing accumulator with
  | nil => exact h
  | cons e l ih =>
    have hhead : Accumulator.Counted (accumulator.merge e.1 e.2) :=
      h.merge (hentries e List.mem_cons_self)
    exact ih hhead fun e' he' => hentries e' (List.mem_cons_of_mem e he')

end Lawful

namespace MetricBatch
variable {batch : MetricBatch} {accumulator : Accumulator} {k : MetricKey} {bucketStart : ℕ}

/-- A batch holds samples of its bucket, or nothing. -/
def Ok (batch : MetricBatch) : Prop :=
  batch.delta = {} ∨
    batch.bucketStartUnixSecs ≠ none ∧ batch.delta.count.val ≠ 0 ∧ batch.delta.histogram = []

/-- What the batch counts under a key. -/
def tally (batch : MetricBatch) (k : MetricKey) : Tally u64Max :=
  if batch.bucketStartUnixSecs.map (·, batch.identity) = some k then batch.delta.tally else 0

theorem Ok.counted (h : batch.Ok) (hcount : batch.delta.count.val ≠ 0) : batch.delta.Counted := by
  rcases h with hempty | ⟨-, -, hhistogram⟩
  · rw [hempty] at hcount
    exact absurd rfl hcount
  · refine ⟨hcount, ?_⟩
    rw [hhistogram]
    exact histogramFits_nil

theorem Ok.eq_empty (h : batch.Ok) (hcount : batch.delta.count.val = 0) : batch.delta = {} := by
  rcases h with hempty | ⟨-, hne, -⟩
  · exact hempty
  · exact absurd hcount hne

theorem Ok.eq_empty_of_none (h : batch.Ok) (hnone : batch.bucketStartUnixSecs = none) :
    batch.delta = {} := by
  rcases h with hempty | ⟨hne, -, -⟩
  · exact hempty
  · exact absurd hnone hne

/-- A flush leaves the batch empty. -/
theorem flush_fst (h : batch.Ok) :
    (batch.flush accumulator).1 = { batch with bucketStartUnixSecs := none, delta := {} } := by
  obtain ⟨identity, bucketStart, delta⟩ := batch
  unfold flush
  cases bucketStart with
  | none =>
    have hempty : delta = {} := h.eq_empty_of_none rfl
    rw [hempty]
  | some bucketStart =>
    by_cases hcount : delta.count.val = 0
    · have hempty : delta = {} := h.eq_empty hcount
      dsimp only
      rw [if_pos hcount, hempty]
    · dsimp only
      rw [if_neg hcount]

/-- What the batch counted is counted by the accumulator. -/
theorem tally_flush (h : batch.Ok) :
    ((batch.flush accumulator).2.entry k).tally = (accumulator.entry k).tally + batch.tally k := by
  obtain ⟨identity, bucketStart, delta⟩ := batch
  unfold flush tally
  cases bucketStart with
  | none => simp
  | some bucketStart =>
    dsimp only [Option.map_some]
    by_cases hcount : delta.count.val = 0
    · have hempty : delta = {} := h.eq_empty hcount
      rw [if_pos hcount, hempty]
      simp
    · rw [if_neg hcount]
      dsimp only
      rw [tally_entry_merge]
      simp only [Option.some_inj, eq_comm]

theorem Ok.flush (h : batch.Ok) (haccumulator : accumulator.Counted) :
    Accumulator.Counted (batch.flush accumulator).2 := by
  unfold MetricBatch.flush
  cases batch.bucketStartUnixSecs with
  | none => exact haccumulator
  | some bucketStart =>
    by_cases hcount : batch.delta.count.val = 0
    · dsimp only
      rw [if_pos hcount]
      exact haccumulator
    · dsimp only
      rw [if_neg hcount]
      exact haccumulator.merge (h.counted hcount)

/-- After the first half of `record` the batch is in the bucket of the sample. -/
theorem bucketStart_enter (batch : MetricBatch) (accumulator : Accumulator) (bucketStart : ℕ) :
    (batch.enter accumulator bucketStart).1.bucketStartUnixSecs = some bucketStart := by
  unfold enter
  split_ifs with heq
  · exact heq
  · rfl

theorem identity_enter (h : batch.Ok) :
    (batch.enter accumulator bucketStart).1.identity = batch.identity := by
  unfold enter
  split_ifs
  · rfl
  · rw [flush_fst h]

theorem histogram_enter (h : batch.Ok) :
    (batch.enter accumulator bucketStart).1.delta.histogram = [] := by
  unfold enter
  split_ifs
  · rcases h with hempty | ⟨-, -, hhistogram⟩
    · rw [hempty]
    · exact hhistogram
  · rw [flush_fst h]

theorem counted_enter (h : batch.Ok) (haccumulator : accumulator.Counted) :
    Accumulator.Counted (batch.enter accumulator bucketStart).2 := by
  unfold enter
  split_ifs
  · exact haccumulator
  · exact h.flush haccumulator

theorem tally_enter (h : batch.Ok) :
    ((batch.enter accumulator bucketStart).2.entry k).tally +
        (batch.enter accumulator bucketStart).1.tally k =
      (accumulator.entry k).tally + batch.tally k := by
  unfold enter
  split_ifs
  · rfl
  · dsimp only
    rw [tally_flush h, flush_fst h]
    have hempty : MetricBatch.tally ⟨batch.identity, some bucketStart, {}⟩ k = 0 := by
      unfold tally
      simp
    rw [hempty, add_zero]

variable {now value : ℕ}

theorem ok_record (h : batch.Ok) : (batch.record accumulator now value).1.Ok := by
  refine .inr ⟨?_, count_countOne _ value, ?_⟩
  · show (batch.enter accumulator (fiveMinuteBucketStart now)).1.bucketStartUnixSecs ≠ none
    rw [bucketStart_enter]
    exact Option.some_ne_none _
  · exact histogram_enter h

/-- The sample is counted in its bucket, and everything else as before. -/
theorem tally_record (h : batch.Ok) :
    ((batch.record accumulator now value).2.entry k).tally +
        (batch.record accumulator now value).1.tally k =
      (accumulator.entry k).tally + batch.tally k +
        if (fiveMinuteBucketStart now, batch.identity) = k then
          Tally.one latencyHistogramCells ⟨value, none⟩
        else 0 := by
  have hbucket := bucketStart_enter batch accumulator (fiveMinuteBucketStart now)
  have hidentity : (batch.enter accumulator (fiveMinuteBucketStart now)).1.identity =
      batch.identity := identity_enter h
  have henter : ((batch.enter accumulator (fiveMinuteBucketStart now)).2.entry k).tally +
        (batch.enter accumulator (fiveMinuteBucketStart now)).1.tally k =
      (accumulator.entry k).tally + batch.tally k := tally_enter h
  rw [← henter, add_assoc]
  unfold record tally
  dsimp only
  rw [hbucket, hidentity]
  simp only [Option.map_some, Option.some_inj]
  by_cases hk : (fiveMinuteBucketStart now, batch.identity) = k
  · rw [if_pos hk, if_pos hk, if_pos hk, tally_countOne]
  · rw [if_neg hk, if_neg hk, if_neg hk, add_zero, add_zero, add_zero]

end MetricBatch

variable {δ : Type*} {codec : ReportCodec δ} {reporter : Reporter}

theorem metricKey_eq {bucketStart : ℕ} {identity : MetricIdentity} {key : MetricKey}
    (h : metricKey codec bucketStart identity = some key) : key = (bucketStart, identity) := by
  unfold metricKey at h
  split_ifs at h
  exact (Option.some.inj h).symm

/-- The value that a round of `build_flush_batch` makes. -/
def nextValue (stored : Option MetricPoint) (delta : MetricDelta) : MetricValue :=
  let merged := mergeDelta (stored.elim emptyMetricValue (·.value)) delta
  { merged with revision := merged.revision + Saturating.ofNat 1 }

theorem stage_ok {stored : Option MetricPoint} {key : MetricKey} {delta : MetricDelta}
    {signatureHex : String} {row : Staged}
    (h : stage codec reporter stored key delta signatureHex = some row) :
    row.key = key ∧ row.stored = stored ∧ row.point = ⟨key.1, key.2, nextValue stored delta⟩ ∧
      row.report.payload = reporter.payload key (nextValue stored delta) ∧
      row.report.payload.validate = true := by
  unfold stage at h
  cases hkey : metricKey codec key.1 key.2 with
  | none =>
    rw [hkey] at h
    cases h
  | some rowKey =>
    rw [hkey] at h
    obtain ⟨report, hsign, heq⟩ := Option.map_eq_some_iff.mp h
    unfold SignedStatisticsReport.sign at hsign
    split_ifs at hsign with hrefused
    have hreport := Option.some.inj hsign
    subst hreport heq
    refine ⟨metricKey_eq hkey, rfl, rfl, rfl, ?_⟩
    simp only [Bool.not_eq_true, Bool.or_eq_false_iff, Bool.not_eq_false'] at hrefused
    exact hrefused.1.1

/-- What the metric table counts under a key. -/
def storedTally (stored : Option MetricPoint) : Tally u64Max :=
  stored.elim 0 fun point => point.value.counted.tally

theorem tally_nextValue (stored : Option MetricPoint) (delta : MetricDelta) :
    (nextValue stored delta).counted.tally = storedTally stored + delta.tally := by
  have hmerge : (nextValue stored delta).counted =
      mergePendingDelta (stored.elim emptyMetricValue (·.value)).counted delta :=
    counted_mergeDelta _ _
  rw [hmerge, tally_mergePendingDelta]
  cases stored with
  | none =>
    have hempty : emptyMetricValue.counted = {} := rfl
    show emptyMetricValue.counted.tally + delta.tally = 0 + delta.tally
    rw [hempty, MetricDelta.tally_empty]
  | some point => rfl

theorem count_nextValue {stored : Option MetricPoint} {delta : MetricDelta}
    (h : delta.count.val ≠ 0) : (nextValue stored delta).count.val ≠ 0 := by
  have hcount := congrArg MetricDelta.count
    (counted_mergeDelta (stored.elim emptyMetricValue (·.value)) delta)
  have hmerged : (nextValue stored delta).count =
      (mergePendingDelta (stored.elim emptyMetricValue (·.value)).counted delta).count := hcount
  rw [hmerged]
  exact count_mergePendingDelta h

/-- The row is the one of the delta, under the delta's key. -/
def StagedAs (codec : ReportCodec δ) (reporter : Reporter)
    (e : Sigma fun _ : MetricKey => MetricDelta) (row : Staged) : Prop :=
  ∃ signatureHex, stage codec reporter row.stored e.1 e.2 signatureHex = some row

theorem map_key_of_stagedAs {done : List (Sigma fun _ : MetricKey => MetricDelta)}
    {staged : List Staged} (h : List.Forall₂ (StagedAs codec reporter) done staged) :
    staged.map (·.key) = done.map Sigma.fst := by
  induction h with
  | nil => rfl
  | cons hrow _ ih =>
    obtain ⟨signatureHex, hrow⟩ := hrow
    rw [List.map_cons, List.map_cons, ih, (stage_ok hrow).1]

/-- The rounds done and the rounds left are those of the detached deltas. -/
structure Flush.Ok (codec : ReportCodec δ) (reporter : Reporter) (call : Flush) : Prop where
  deltas : call.deltas.Counted
  entries : ∃ done, done ++ call.rest = call.deltas.entries ∧
    List.Forall₂ (StagedAs codec reporter) done call.staged

namespace Flush
variable {call : Flush}

theorem Ok.keys (h : call.Ok codec reporter) (hrest : call.rest = []) :
    call.staged.map (·.key) = call.deltas.keys := by
  obtain ⟨done, hdone, hstaged⟩ := h.entries
  rw [hrest, List.append_nil] at hdone
  rw [map_key_of_stagedAs hstaged, hdone]
  rfl

/-- When all rounds are done, each detached delta has its row, and there are no others. -/
theorem Ok.cases (h : call.Ok codec reporter) (hrest : call.rest = []) (k : MetricKey) :
    call.deltas.lookup k = none ∧ k ∉ call.staged.map (·.key) ∨
      ∃ delta row signatureHex, call.deltas.lookup k = some delta ∧ row ∈ call.staged ∧
        stage codec reporter row.stored k delta signatureHex = some row := by
  cases hlookup : call.deltas.lookup k with
  | none =>
    refine .inl ⟨rfl, ?_⟩
    rw [h.keys hrest]
    exact AList.lookup_eq_none.mp hlookup
  | some delta =>
    right
    obtain ⟨done, hdone, hstaged⟩ := h.entries
    rw [hrest, List.append_nil] at hdone
    subst hdone
    obtain ⟨i, hi, hentry⟩ := List.mem_iff_getElem.mp (Table.lookup_eq_some.mp hlookup)
    have hi' : i < call.staged.length := by
      rw [← hstaged.length_eq]
      exact hi
    obtain ⟨signatureHex, hrow⟩ := hstaged.get hi hi'
    rw [List.get_eq_getElem, List.get_eq_getElem, hentry] at hrow
    exact ⟨delta, call.staged[i], signatureHex, rfl, List.getElem_mem hi', hrow⟩

/-- One more round. -/
theorem Ok.stage {deltas : Accumulator} {rest : List (Sigma fun _ : MetricKey => MetricDelta)}
    {key : MetricKey} {delta : MetricDelta} {staged : List Staged} {row : Staged}
    {stored : Option MetricPoint} {signatureHex : String}
    (h : Ok codec reporter ⟨deltas, ⟨key, delta⟩ :: rest, staged⟩)
    (hrow : Statistics.stage codec reporter stored key delta signatureHex = some row) :
    Ok codec reporter ⟨deltas, rest, staged ++ [row]⟩ := by
  obtain ⟨done, hdone, hstaged⟩ := h.entries
  refine ⟨h.deltas, done ++ [⟨key, delta⟩], ?_, ?_⟩
  · rw [List.append_assoc]
    exact hdone
  · apply List.rel_append hstaged
    refine .cons ⟨signatureHex, ?_⟩ .nil
    rw [(stage_ok hrow).2.1]
    exact hrow

end Flush

namespace Sys
variable {s s' : Sys δ}

/-- What is counted under a key, wherever it is. -/
def tally (s : Sys δ) (k : MetricKey) : Tally u64Max :=
  storedTally (s.metric5m.lookup k) + (s.accumulator.entry k).tally +
    s.flushes.sum (fun call => (call.deltas.entry k).tally) + s.batches.sum (·.tally k)

/-- The samples recorded under a key. -/
def samplesAt (s : Sys δ) (k : MetricKey) : List Sample :=
  s.recorded.filterMap fun e => if e.1 = k then some e.2 else none

/-- Everything that is held counts something, and all of it together counts every sample once. -/
structure Conserved (codec : ReportCodec δ) (reporter : Reporter) (s : Sys δ) : Prop where
  accumulator : s.accumulator.Counted
  batches : ∀ i batch, s.batches.get i = some batch → batch.Ok
  flushes : ∀ i call, s.flushes.get i = some call → call.Ok codec reporter
  metric5m : ∀ k point, s.metric5m.lookup k = some point → point.value.count.val ≠ 0
  tally : ∀ k, s.tally k = sampleTally (s.samplesAt k)

theorem conserved_start : ({} : Sys δ).Conserved codec reporter where
  accumulator := by
    intro key delta h
    cases h
  batches := by
    intro i batch h
    cases h
  flushes := by
    intro i call h
    cases h
  metric5m := by
    intro k point h
    cases h
  tally := by
    intro k
    simp [Sys.tally, samplesAt, storedTally]

theorem sampleTally_recorded (key k : MetricKey) (sample : Sample)
    (recorded : List (MetricKey × Sample)) :
    sampleTally (((key, sample) :: recorded).filterMap fun e => if e.1 = k then some e.2 else none) =
      sampleTally (recorded.filterMap fun e => if e.1 = k then some e.2 else none) +
        if key = k then Tally.one latencyHistogramCells sample.reading else 0 := by
  by_cases hk : key = k
  · rw [List.filterMap_cons_some (by rw [if_pos hk]), if_pos hk, sampleTally_cons]
  · rw [List.filterMap_cons_none (by rw [if_neg hk]), if_neg hk, add_zero]

theorem Conserved.record {now : ℕ} {identity : MetricIdentity} {sample : Sample}
    (h : s.Conserved codec reporter) : (s.record now identity sample).Conserved codec reporter where
  accumulator := h.accumulator.insert (counted_record (h.accumulator.entry _) sample)
  batches := h.batches
  flushes := h.flushes
  metric5m := h.metric5m
  tally := by
    intro k
    have htally := h.tally k
    have hrecord := tally_record (h.accumulator.entry (fiveMinuteBucketStart now, identity)) sample
    unfold samplesAt Sys.tally at htally ⊢
    unfold Sys.record
    dsimp only
    rw [sampleTally_recorded, ← htally, entry_insert]
    by_cases hk : k = (fiveMinuteBucketStart now, identity)
    · subst hk
      rw [if_pos rfl, if_pos rfl, hrecord]
      abel
    · rw [if_neg hk, if_neg (Ne.symm hk), add_zero]

section Batches
variable {i now value : ℕ} {batch : MetricBatch} {k : MetricKey}

/-- What a batch and the accumulator count together is all that changes. -/
theorem tally_withBatch {batch' : Option MetricBatch} {accumulator : Accumulator}
    {t : Tally u64Max} (hget : s.batches.get i = some batch)
    (h : (accumulator.entry k).tally + batch'.elim 0 (·.tally k) =
      (s.accumulator.entry k).tally + batch.tally k + t) :
    (s.withBatch i batch' accumulator).tally k = s.tally k + t := by
  obtain ⟨hsum, hset⟩ := Slots.sum_set_of_get (f := fun b => MetricBatch.tally b k) hget
  unfold Sys.tally withBatch
  dsimp only
  rw [hset batch', hsum]
  generalize Slots.sum (fun b => MetricBatch.tally b k) (s.batches.set i none) = rest
  calc storedTally (s.metric5m.lookup k) + (accumulator.entry k).tally +
          s.flushes.sum (fun call => (call.deltas.entry k).tally) +
          (batch'.elim 0 (·.tally k) + rest)
      = storedTally (s.metric5m.lookup k) +
          s.flushes.sum (fun call => (call.deltas.entry k).tally) + rest +
          ((accumulator.entry k).tally + batch'.elim 0 (·.tally k)) := by abel
    _ = _ := by
      rw [h]
      abel

theorem Conserved.withBatch {batch' : Option MetricBatch} {accumulator : Accumulator}
    (h : s.Conserved codec reporter) (haccumulator : accumulator.Counted)
    (hbatch : ∀ b, batch' = some b → b.Ok)
    (htally : ∀ k, (s.withBatch i batch' accumulator).tally k = sampleTally (s.samplesAt k)) :
    (s.withBatch i batch' accumulator).Conserved codec reporter where
  accumulator := haccumulator
  batches := by
    intro j b hj
    rcases Slots.get_set_cases hj with ⟨-, heq, -⟩ | ⟨-, hold⟩
    · exact hbatch b heq
    · exact h.batches j b hold
  flushes := h.flushes
  metric5m := h.metric5m
  tally := htally

theorem Conserved.batchFlush (h : s.Conserved codec reporter) (hs : s.batchFlush i = some s') :
    s'.Conserved codec reporter := by
  obtain ⟨batch, hget, rfl⟩ := Option.map_eq_some_iff.mp hs
  have hok := h.batches i batch hget
  apply h.withBatch (hok.flush h.accumulator)
  · intro b hb
    have heq := Option.some.inj hb
    rw [← heq, MetricBatch.flush_fst hok]
    exact .inl rfl
  · intro k
    rw [← h.tally k, ← add_zero (s.tally k)]
    apply tally_withBatch hget
    have hempty : (batch.flush s.accumulator).1.tally k = 0 := by
      rw [MetricBatch.flush_fst hok]
      exact if_neg (by simp)
    rw [MetricBatch.tally_flush hok, Option.elim_some, hempty]

/-- Dropping a batch flushes it. -/
theorem Conserved.batchDrop (h : s.Conserved codec reporter) (hs : s.batchDrop i = some s') :
    s'.Conserved codec reporter := by
  obtain ⟨batch, hget, rfl⟩ := Option.map_eq_some_iff.mp hs
  have hok := h.batches i batch hget
  apply h.withBatch (hok.flush h.accumulator)
  · intro b hb
    cases hb
  · intro k
    rw [← h.tally k, ← add_zero (s.tally k)]
    apply tally_withBatch hget
    rw [MetricBatch.tally_flush hok, Option.elim_none]

theorem Conserved.batchRecord (h : s.Conserved codec reporter)
    (hs : s.batchRecord i now value = some s') : s'.Conserved codec reporter := by
  obtain ⟨batch, hget, rfl⟩ := Option.map_eq_some_iff.mp hs
  have hok := h.batches i batch hget
  have htally : ∀ k, (s.withBatch i (some (batch.record s.accumulator now value).1)
        (batch.record s.accumulator now value).2).tally k =
      s.tally k + if (fiveMinuteBucketStart now, batch.identity) = k then
        Tally.one latencyHistogramCells ⟨value, none⟩ else 0 := by
    intro k
    apply tally_withBatch hget
    exact MetricBatch.tally_record hok
  constructor
  · exact MetricBatch.counted_enter hok h.accumulator
  · intro j b hj
    rcases Slots.get_set_cases hj with ⟨-, heq, -⟩ | ⟨-, hold⟩
    · rw [← Option.some.inj heq]
      exact MetricBatch.ok_record hok
    · exact h.batches j b hold
  · exact h.flushes
  · exact h.metric5m
  · intro k
    have hall := htally k
    rw [h.tally k] at hall
    exact hall.trans (sampleTally_recorded _ k ⟨value, none⟩ s.recorded).symm

theorem Conserved.newBatch {identity : MetricIdentity} (h : s.Conserved codec reporter) :
    Conserved codec reporter
      { s with batches := s.batches.push { identity := identity } } where
  accumulator := h.accumulator
  batches := by
    intro j b hj
    rcases Slots.get_push_cases hj with ⟨-, rfl⟩ | ⟨-, hold⟩
    · exact .inl rfl
    · exact h.batches j b hold
  flushes := h.flushes
  metric5m := h.metric5m
  tally := by
    intro k
    have htally := h.tally k
    have hempty : MetricBatch.tally { identity := identity } k = 0 := if_neg (by simp)
    unfold samplesAt Sys.tally at htally ⊢
    dsimp only
    rw [Slots.sum_push, hempty, zero_add]
    exact htally

end Batches

section Flushes
variable {i : ℕ} {call : Flush} {k : MetricKey}

/-- The deltas are detached. -/
theorem Conserved.flush (h : s.Conserved codec reporter) : s.flush.Conserved codec reporter := by
  unfold Sys.flush
  split_ifs with hempty
  · exact h
  · constructor
    · intro key delta hlookup
      cases hlookup
    · exact h.batches
    · intro j call hj
      rcases Slots.get_push_cases hj with ⟨-, rfl⟩ | ⟨-, hold⟩
      · exact ⟨h.accumulator, [], rfl, .nil⟩
      · exact h.flushes j call hold
    · exact h.metric5m
    · intro k
      have htally := h.tally k
      unfold samplesAt Sys.tally at htally ⊢
      dsimp only
      rw [Slots.sum_push, entry_empty, MetricDelta.tally_empty, ← htally]
      abel

/-- A round changes no count: the row waits for the commit. -/
theorem Conserved.stage {signatureHex : String} (h : s.Conserved codec reporter)
    (hs : s.stage codec reporter i signatureHex = some s') : s'.Conserved codec reporter := by
  unfold Sys.stage at hs
  split at hs
  · next deltas key delta rest staged hget =>
    obtain ⟨row, hrow, rfl⟩ := Option.map_eq_some_iff.mp hs
    constructor
    · exact h.accumulator
    · exact h.batches
    · intro j call hj
      rcases Slots.get_set_cases hj with ⟨-, heq, -⟩ | ⟨-, hold⟩
      · rw [← Option.some.inj heq]
        exact (h.flushes i _ hget).stage hrow
      · exact h.flushes j call hold
    · exact h.metric5m
    · intro k
      have htally := h.tally k
      obtain ⟨hsum, hset⟩ :=
        Slots.sum_set_of_get (f := fun call : Flush => (call.deltas.entry k).tally) hget
      unfold samplesAt Sys.tally at htally ⊢
      dsimp only
      rw [hset, ← htally, hsum, Option.elim_some]
  · cases hs

/-- Nothing was committed under the key since it was read, and its revision can grow. -/
def Unchanged (s : Sys δ) (row : Staged) : Prop :=
  s.metric5m.lookup row.key = row.stored ∧
    (row.stored.elim emptyMetricValue (·.value)).revision.val < u64Max

instance (s : Sys δ) (row : Staged) : Decidable (s.Unchanged row) :=
  inferInstanceAs (Decidable (_ ∧ _))

/-- After a commit of rows that are up to date, a key has the value made of what was there. -/
theorem lookup_putPoints (hcall : call.Ok codec reporter) (hrest : call.rest = [])
    (hunchanged : ∀ row ∈ call.staged, s.Unchanged row) (k : MetricKey) :
    (call.deltas.lookup k = none ∧ k ∉ call.staged.map (·.key) ∧
        (putPoints s.metric5m call.staged).lookup k = s.metric5m.lookup k) ∨
      ∃ delta row, call.deltas.lookup k = some delta ∧ row ∈ call.staged ∧ row.key = k ∧
        (putPoints s.metric5m call.staged).lookup k =
          some ⟨k.1, k.2, nextValue (s.metric5m.lookup k) delta⟩ ∧
        row.report.payload = reporter.payload k (nextValue (s.metric5m.lookup k) delta) ∧
        row.report.payload.validate = true := by
  have hmap : (call.staged.map fun row => (row.key, row.point)).map Prod.fst =
      call.staged.map (·.key) := by
    rw [List.map_map]
    rfl
  rcases hcall.cases hrest k with ⟨hnone, hmem⟩ | ⟨delta, row, signatureHex, hlookup, hrow, hstage⟩
  · refine .inl ⟨hnone, hmem, ?_⟩
    apply Table.lookup_insertAll_of_notMem
    rw [hmap]
    exact hmem
  · obtain ⟨hkey, -, hpoint, hpayload, hvalid⟩ := stage_ok hstage
    have hstored : s.metric5m.lookup k = row.stored := by
      rw [← hkey]
      exact (hunchanged row hrow).1
    rw [← hstored] at hpoint hpayload
    refine .inr ⟨delta, row, hlookup, hrow, hkey, ?_, hpayload, hvalid⟩
    rw [← hpoint]
    apply Table.lookup_insertAll_of_mem
    · rw [hmap, hcall.keys hrest]
      exact call.deltas.nodupKeys
    · apply List.mem_map.mpr
      exact ⟨row, hrow, by rw [hkey]⟩

/-- The detached deltas are counted by the metric table. -/
theorem Conserved.commit (h : s.Conserved codec reporter) (hs : s.commit i = some s')
    (hunchanged : ∀ call, s.flushes.get i = some call → ∀ row ∈ call.staged, s.Unchanged row) :
    s'.Conserved codec reporter := by
  unfold Sys.commit at hs
  split at hs
  · next deltas staged hget =>
    rw [← Option.some.inj hs]
    have hcall := h.flushes i _ hget
    have hlookup := lookup_putPoints hcall rfl (hunchanged _ hget)
    constructor
    · exact h.accumulator
    · exact h.batches
    · intro j call hj
      rcases Slots.get_set_cases hj with ⟨-, heq, -⟩ | ⟨-, hold⟩
      · cases heq
      · exact h.flushes j call hold
    · intro k point hpoint
      rcases hlookup k with ⟨-, -, hsame⟩ | ⟨delta, row, hdelta, -, -, hnew, -⟩
      · exact h.metric5m k point (hsame ▸ hpoint)
      · have heq := Option.some.inj (hpoint.symm.trans hnew)
        rw [heq]
        exact count_nextValue (hcall.deltas k delta hdelta).count
    · intro k
      have htally := h.tally k
      obtain ⟨hsum, -⟩ :=
        Slots.sum_set_of_get (f := fun call : Flush => (call.deltas.entry k).tally) hget
      unfold samplesAt Sys.tally at htally ⊢
      dsimp only
      rw [← htally, hsum]
      unfold Accumulator.entry
      rcases hlookup k with ⟨hnone, -, hsame⟩ | ⟨delta, row, hdelta, -, -, hnew, -⟩
      · dsimp only at hnone hsame
        rw [hsame, hnone]
        simp
      · dsimp only at hdelta hnew
        rw [hnew, hdelta]
        have hstored : storedTally (some ⟨k.1, k.2, nextValue (s.metric5m.lookup k) delta⟩) =
            storedTally (s.metric5m.lookup k) + delta.tally := tally_nextValue _ _
        rw [hstored, Option.getD_some]
        abel
  · cases hs

/-- A call that fails gives its deltas back. -/
theorem Conserved.failFlush (h : s.Conserved codec reporter) (hs : s.failFlush i = some s') :
    s'.Conserved codec reporter := by
  obtain ⟨call, hget, rfl⟩ := Option.map_eq_some_iff.mp hs
  constructor
  · exact h.accumulator.restoreDeltas (h.flushes i call hget).deltas
  · exact h.batches
  · intro j call' hj
    rcases Slots.get_set_cases hj with ⟨-, heq, -⟩ | ⟨-, hold⟩
    · cases heq
    · exact h.flushes j call' hold
  · exact h.metric5m
  · intro k
    have htally := h.tally k
    obtain ⟨hsum, -⟩ :=
      Slots.sum_set_of_get (f := fun call : Flush => (call.deltas.entry k).tally) hget
    unfold samplesAt Sys.tally at htally ⊢
    dsimp only
    rw [tally_entry_restoreDeltas, ← htally, hsum]
    abel

end Flushes

/-- Reports, deliveries and acknowledgements change nothing that counts. -/
theorem Conserved.of_counts (h : s.Conserved codec reporter)
    (haccumulator : s'.accumulator = s.accumulator) (hbatches : s'.batches = s.batches)
    (hflushes : s'.flushes = s.flushes) (hmetric5m : s'.metric5m = s.metric5m)
    (hrecorded : s'.recorded = s.recorded) : s'.Conserved codec reporter := by
  constructor
  · rw [haccumulator]
    exact h.accumulator
  · rw [hbatches]
    exact h.batches
  · rw [hflushes]
    exact h.flushes
  · rw [hmetric5m]
    exact h.metric5m
  · intro k
    have htally := h.tally k
    unfold samplesAt Sys.tally at htally ⊢
    rw [haccumulator, hbatches, hflushes, hmetric5m, hrecorded]
    exact htally

variable [DecidableEq δ]

theorem Conserved.step {a : Action δ} (h : s.Conserved codec reporter)
    (hcommit : ∀ i, a = .commit i → ∀ call, s.flushes.get i = some call →
      ∀ row ∈ call.staged, s.Unchanged row)
    (hs : s.step codec reporter a = some s') : s'.Conserved codec reporter := by
  cases a with
  | record now identity sample =>
    rw [← Option.some.inj hs]
    exact h.record
  | newBatch identity =>
    rw [← Option.some.inj hs]
    exact h.newBatch
  | batchRecord i now value => exact h.batchRecord hs
  | batchFlush i => exact h.batchFlush hs
  | batchDrop i => exact h.batchDrop hs
  | flush =>
    rw [← Option.some.inj hs]
    exact h.flush
  | stage i signatureHex => exact h.stage hs
  | commit i => exact h.commit hs (hcommit i rfl)
  | failFlush i => exact h.failFlush hs
  | upload key =>
    obtain ⟨report, -, rfl⟩ := Option.map_eq_some_iff.mp hs
    exact h.of_counts rfl rfl rfl rfl rfl
  | deliver i =>
    have hs : s.deliver codec i = some s' := hs
    unfold Sys.deliver at hs
    split at hs
    · cases hs
    · split at hs
      · cases hs
      · obtain ⟨accepted, -, rfl⟩ := Option.map_eq_some_iff.mp hs
        exact h.of_counts rfl rfl rfl rfl rfl
  | deliverOther report =>
    have hs : s.deliverOther codec reporter report = some s' := hs
    unfold Sys.deliverOther at hs
    split_ifs at hs
    obtain ⟨accepted, -, rfl⟩ := Option.map_eq_some_iff.mp hs
    exact h.of_counts rfl rfl rfl rfl rfl
  | acknowledge i =>
    have hs : s.acknowledge codec i = some s' := hs
    unfold Sys.acknowledge at hs
    split at hs
    · cases hs
    · split at hs
      · rw [← Option.some.inj hs]
        exact h
      · split_ifs at hs
        · rw [← Option.some.inj hs]
          exact h.of_counts rfl rfl rfl rfl rfl
        · rw [← Option.some.inj hs]
          exact h
  | delete i =>
    obtain ⟨call, -, rfl⟩ := Option.map_eq_some_iff.mp hs
    exact h.of_counts rfl rfl rfl rfl rfl
  | failDelete i =>
    obtain ⟨call, -, rfl⟩ := Option.map_eq_some_iff.mp hs
    exact h.of_counts rfl rfl rfl rfl rfl

end Sys

end FlowSplice.Statistics
