import FlowSplice.Lib.Machine
import FlowSplice.Lib.Slots
import FlowSplice.Statistics.Metric

/-! The statistics of one node, the reports it sends, and what the Server keeps of them:
`LocalStatistics`, `MetricBatch` and `StateStore::accept_statistics_report` of
`flowsplice-storage/src/lib.rs`, called in any order. -/
namespace FlowSplice.Statistics

/-- `LocalStatistics::accumulator`. -/
abbrev Accumulator := Table MetricKey MetricDelta

/-- `accumulator.entry(key).or_default()`. -/
def Accumulator.entry (accumulator : Accumulator) (key : MetricKey) : MetricDelta :=
  (accumulator.lookup key).getD {}

/-- `merge_pending_delta` into an entry. -/
def Accumulator.merge (accumulator : Accumulator) (key : MetricKey) (delta : MetricDelta) :
    Accumulator :=
  accumulator.insert key (mergePendingDelta (accumulator.entry key) delta)

/-- `LocalStatistics::restore_deltas`. -/
def restoreDeltas (accumulator deltas : Accumulator) : Accumulator :=
  deltas.entries.foldl (fun accumulator e => Accumulator.merge accumulator e.1 e.2) accumulator

structure MetricBatch where
  identity : MetricIdentity
  bucketStartUnixSecs : Option ℕ := none
  delta : MetricDelta := {}
deriving DecidableEq, Repr

namespace MetricBatch

def flush (batch : MetricBatch) (accumulator : Accumulator) : MetricBatch × Accumulator :=
  match batch.bucketStartUnixSecs with
  | none => (batch, accumulator)
  | some bucketStart =>
    if batch.delta.count.val = 0 then
      ({ batch with bucketStartUnixSecs := none }, accumulator)
    else
      ({ batch with bucketStartUnixSecs := none, delta := {} },
        Accumulator.merge accumulator (bucketStart, batch.identity) batch.delta)

/-- The first half of `record`: a batch that holds another bucket hands it over. -/
def enter (batch : MetricBatch) (accumulator : Accumulator) (bucketStart : ℕ) :
    MetricBatch × Accumulator :=
  if batch.bucketStartUnixSecs = some bucketStart then
    (batch, accumulator)
  else
    ({ (batch.flush accumulator).1 with bucketStartUnixSecs := some bucketStart },
      (batch.flush accumulator).2)

def record (batch : MetricBatch) (accumulator : Accumulator) (now value : ℕ) :
    MetricBatch × Accumulator :=
  let entered := batch.enter accumulator (fiveMinuteBucketStart now)
  ({ entered.1 with delta := entered.1.delta.countOne value }, entered.2)

end MetricBatch

/-- The arguments of `flush_and_stage`. -/
structure Reporter where
  deploymentId : String
  role : Role
  reporterId : String
  certificatePem : String
deriving DecidableEq, Repr

def Reporter.payload (reporter : Reporter) (key : MetricKey) (value : MetricValue) :
    StatisticsReportPayload where
  version := statisticsReportVersion
  deploymentId := reporter.deploymentId
  reporterRole := reporter.role
  reporterId := reporter.reporterId
  bucketStartUnixSecs := key.1
  bucketEndUnixSecs := bucketEnd key.1
  metricFamily := key.2.metricFamily
  dimensions := key.2.dimensions
  reportSequence := value.revision.val
  value := value

/-- What one round of `build_flush_batch` read, and what it puts into the batch. -/
structure Staged where
  key : MetricKey
  stored : Option MetricPoint
  point : MetricPoint
  report : SignedStatisticsReport
deriving DecidableEq, Repr

variable {δ : Type*}

/-- One round of `build_flush_batch`. -/
def stage (codec : ReportCodec δ) (reporter : Reporter) (stored : Option MetricPoint)
    (key : MetricKey) (delta : MetricDelta) (signatureHex : String) : Option Staged :=
  match metricKey codec key.1 key.2 with
  | none => none
  | some rowKey =>
    let merged := mergeDelta (stored.elim emptyMetricValue (·.value)) delta
    let value := { merged with revision := merged.revision + Saturating.ofNat 1 }
    let payload := reporter.payload key value
    (SignedStatisticsReport.sign payload reporter.certificatePem signatureHex).map fun report =>
      ⟨rowKey, stored, ⟨key.1, key.2, value⟩, report⟩

/-- A call of `flush_and_stage` that has detached its deltas. -/
structure Flush where
  deltas : Accumulator
  rest : List (Sigma fun _ : MetricKey => MetricDelta)
  staged : List Staged := []

/-- The puts of the batch, in both tables. -/
def putPoints (metric5m : Table MetricKey MetricPoint) (staged : List Staged) :
    Table MetricKey MetricPoint :=
  metric5m.insertAll (staged.map fun row => (row.key, row.point))

def putReports (reportOutbox : Table MetricKey SignedStatisticsReport) (staged : List Staged) :
    Table MetricKey SignedStatisticsReport :=
  reportOutbox.insertAll (staged.map fun row => (row.key, row.report))

/-- A recorded sample, with its histogram sample. -/
structure Sample where
  value : ℕ
  histogramSample : Option ℕ := none
deriving DecidableEq, Repr

/-- The node and the Server. `uploads` are the reports that `pending_reports` returned, which may
arrive any number of times and in any order; `acks` are the answers of the Server; `recorded` lists
the samples of all calls, for statements about them. -/
structure Sys (δ : Type*) where
  accumulator : Accumulator := ∅
  batches : Slots MetricBatch := {}
  flushes : Slots Flush := {}
  metric5m : Table MetricKey MetricPoint := ∅
  reportOutbox : Table MetricKey SignedStatisticsReport := ∅
  uploads : List (MetricKey × SignedStatisticsReport) := []
  acks : List (MetricKey × δ) := []
  acknowledgements : Slots (MetricKey × SignedStatisticsReport) := {}
  acceptedReports : Table AcceptedReportKey (AcceptedReport δ) := ∅
  recorded : List (MetricKey × Sample) := []

/-- A call of `flush_and_stage` detaches the deltas, reads and stages one metric after the other,
and commits or fails. `acknowledge_report` reads in one transaction and deletes in another. -/
inductive Action (δ : Type*) where
  | record (now : ℕ) (identity : MetricIdentity) (sample : Sample)
  | newBatch (identity : MetricIdentity)
  | batchRecord (i now value : ℕ)
  | batchFlush (i : ℕ)
  | batchDrop (i : ℕ)
  | flush
  | stage (i : ℕ) (signatureHex : String)
  | commit (i : ℕ)
  | failFlush (i : ℕ)
  | upload (key : MetricKey)
  | deliver (i : ℕ)
  | deliverOther (report : VerifiedStatisticsReport δ)
  | acknowledge (i : ℕ)
  | delete (i : ℕ)
  | failDelete (i : ℕ)
deriving DecidableEq, Repr

namespace Sys

def record (s : Sys δ) (now : ℕ) (identity : MetricIdentity) (sample : Sample) : Sys δ :=
  let key := (fiveMinuteBucketStart now, identity)
  let delta := (s.accumulator.entry key).record sample.value sample.histogramSample
  { s with
    accumulator := s.accumulator.insert key delta
    recorded := (key, sample) :: s.recorded }

/-- The accumulator lock is held while a batch hands over its delta. -/
def withBatch (s : Sys δ) (i : ℕ) (batch : Option MetricBatch) (accumulator : Accumulator) : Sys δ :=
  { s with batches := s.batches.set i batch, accumulator := accumulator }

def batchRecord (s : Sys δ) (i now value : ℕ) : Option (Sys δ) :=
  (s.batches.get i).map fun batch =>
    let recorded := batch.record s.accumulator now value
    let key := (fiveMinuteBucketStart now, batch.identity)
    { s.withBatch i (some recorded.1) recorded.2 with recorded := (key, ⟨value, none⟩) :: s.recorded }

def batchFlush (s : Sys δ) (i : ℕ) : Option (Sys δ) :=
  (s.batches.get i).map fun batch =>
    let flushed := batch.flush s.accumulator
    s.withBatch i (some flushed.1) flushed.2

def batchDrop (s : Sys δ) (i : ℕ) : Option (Sys δ) :=
  (s.batches.get i).map fun batch => s.withBatch i none (batch.flush s.accumulator).2

def flush (s : Sys δ) : Sys δ :=
  if s.accumulator.entries.isEmpty then
    s
  else
    let call := { deltas := s.accumulator, rest := s.accumulator.entries }
    { s with accumulator := ∅, flushes := s.flushes.push call }

def stage (codec : ReportCodec δ) (reporter : Reporter) (s : Sys δ) (i : ℕ)
    (signatureHex : String) : Option (Sys δ) :=
  match s.flushes.get i with
  | some ⟨deltas, ⟨key, delta⟩ :: rest, staged⟩ =>
    (Statistics.stage codec reporter (s.metric5m.lookup key) key delta signatureHex).map fun row =>
      { s with flushes := s.flushes.set i (some ⟨deltas, rest, staged ++ [row]⟩) }
  | _ => none

def commit (s : Sys δ) (i : ℕ) : Option (Sys δ) :=
  match s.flushes.get i with
  | some ⟨_, [], staged⟩ =>
    some { s with
      flushes := s.flushes.set i none
      metric5m := putPoints s.metric5m staged
      reportOutbox := putReports s.reportOutbox staged }
  | _ => none

def failFlush (s : Sys δ) (i : ℕ) : Option (Sys δ) :=
  (s.flushes.get i).map fun call =>
    { s with
      flushes := s.flushes.set i none
      accumulator := restoreDeltas s.accumulator call.deltas }

def upload (s : Sys δ) (key : MetricKey) : Option (Sys δ) :=
  (s.reportOutbox.lookup key).map fun report => { s with uploads := s.uploads ++ [(key, report)] }

variable [DecidableEq δ]

/-- The Server acknowledges what it accepts, whatever the kind of acceptance. -/
def deliver (codec : ReportCodec δ) (s : Sys δ) (i : ℕ) : Option (Sys δ) :=
  match s.uploads[i]? with
  | none => none
  | some (key, report) =>
    match report.verify codec with
    | none => none
    | some verified =>
      (acceptStatisticsReport codec s.acceptedReports verified).map fun accepted =>
        { s with
          acceptedReports := accepted.2
          acks := s.acks ++ [(key, verified.digestSha256)] }

/-- A report of another reporter. -/
def deliverOther (codec : ReportCodec δ) (reporter : Reporter) (s : Sys δ)
    (report : VerifiedStatisticsReport δ) : Option (Sys δ) :=
  if report.payload.deploymentId = reporter.deploymentId ∧
      report.payload.reporterRole = reporter.role ∧ report.payload.reporterId = reporter.reporterId then
    none
  else
    (acceptStatisticsReport codec s.acceptedReports report).map fun accepted =>
      { s with acceptedReports := accepted.2 }

/-- The read of `acknowledge_report`; without the report the call is over. -/
def acknowledge (codec : ReportCodec δ) (s : Sys δ) (i : ℕ) : Option (Sys δ) :=
  match s.acks[i]? with
  | none => none
  | some (key, digestSha256) =>
    match s.reportOutbox.lookup key with
    | none => some s
    | some report =>
      if report.digestSha256 codec = digestSha256 then
        some { s with acknowledgements := s.acknowledgements.push (key, report) }
      else
        some s

omit [DecidableEq δ] in
/-- The delete of `acknowledge_report`, whatever the entry holds by now. -/
def delete (s : Sys δ) (i : ℕ) : Option (Sys δ) :=
  (s.acknowledgements.get i).map fun call =>
    { s with
      acknowledgements := s.acknowledgements.set i none
      reportOutbox := s.reportOutbox.erase call.1 }

omit [DecidableEq δ] in
def failDelete (s : Sys δ) (i : ℕ) : Option (Sys δ) :=
  (s.acknowledgements.get i).map fun _ =>
    { s with acknowledgements := s.acknowledgements.set i none }

def step (codec : ReportCodec δ) (reporter : Reporter) (s : Sys δ) : Action δ → Option (Sys δ)
  | .record now identity sample => some (s.record now identity sample)
  | .newBatch identity => some { s with batches := s.batches.push { identity := identity } }
  | .batchRecord i now value => s.batchRecord i now value
  | .batchFlush i => s.batchFlush i
  | .batchDrop i => s.batchDrop i
  | .flush => some s.flush
  | .stage i signatureHex => s.stage codec reporter i signatureHex
  | .commit i => s.commit i
  | .failFlush i => s.failFlush i
  | .upload key => s.upload key
  | .deliver i => s.deliver codec i
  | .deliverOther report => s.deliverOther codec reporter report
  | .acknowledge i => s.acknowledge codec i
  | .delete i => s.delete i
  | .failDelete i => s.failDelete i

end Sys

def machine [DecidableEq δ] (codec : ReportCodec δ) (reporter : Reporter) :
    Machine (Sys δ) (Action δ) where
  start := {}
  step := Sys.step codec reporter

end FlowSplice.Statistics
