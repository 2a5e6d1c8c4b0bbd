import FlowSplice.Authorization.Queries
import FlowSplice.Lib.Tally

/-! Metrics and the reports made of them: `flowsplice-core/src/statistics.rs`, and how
`flowsplice-storage/src/lib.rs` counts samples, merges counts and accepts reports. -/
namespace FlowSplice.Statistics

def u64Max : ℕ := 18446744073709551615

/-- A `u64` that is only added to, by `saturating_add`. -/
abbrev U64 := Saturating u64Max

def fiveMinuteSecs : ℕ := 300

def fiveMinuteBucketStart (unixSecs : ℕ) : ℕ := unixSecs - unixSecs % fiveMinuteSecs

/-- `LATENCY_HISTOGRAM_BOUNDS_MS`. -/
def latencyHistogramBoundsMs : List ℕ :=
  [1, 5, 10, 25, 50, 100, 250, 500, 1000, 2500, 5000, 10000]

/-- One count for each bound, and one for what is above them all. -/
def latencyHistogramCells : ℕ := latencyHistogramBoundsMs.length + 1

/-- The first bound that the sample does not exceed. -/
def latencyHistogramIndex (sample : ℕ) : ℕ :=
  (latencyHistogramBoundsMs.findIdx? (sample ≤ ·)).getD latencyHistogramBoundsMs.length

/-- The map of dimensions is the list of its entries, sorted by their names. -/
structure MetricIdentity where
  metricFamily : String
  dimensions : List (String × String)
deriving DecidableEq, Repr

/-- The key of a metric: where its five minutes start, and its identity. -/
abbrev MetricKey := ℕ × MetricIdentity

@[ext] structure MetricDelta where
  count : U64 := 0
  sum : U64 := 0
  min : ℕ := 0
  max : ℕ := 0
  histogram : List U64 := []
deriving DecidableEq, Repr

/-- Counts one value: what `LocalStatistics::record` and `MetricBatch::record` share. -/
def MetricDelta.countOne (delta : MetricDelta) (value : ℕ) : MetricDelta :=
  let count := delta.count + Saturating.ofNat 1
  { delta with
    count := count
    sum := delta.sum + Saturating.ofNat value
    min := if count.val = 1 then value else Min.min delta.min value
    max := if count.val = 1 then value else Max.max delta.max value }

/-- `LocalStatistics::record`, once it has the entry of the metric. -/
def MetricDelta.record (delta : MetricDelta) (value : ℕ) (histogramSample : Option ℕ) :
    MetricDelta :=
  let delta := delta.countOne value
  match histogramSample with
  | none => delta
  | some sample =>
    let histogram :=
      if delta.histogram.isEmpty then List.replicate latencyHistogramCells 0 else delta.histogram
    { delta with
      histogram := histogram.modify (latencyHistogramIndex sample) (· + Saturating.ofNat 1) }

/-- Resizes the target if it is shorter, and adds the cells of the source to its first cells. -/
def mergeHistogram (target source : List U64) : List U64 :=
  let target :=
    if target.length < source.length then
      target ++ List.replicate (source.length - target.length) 0
    else
      target
  List.zipWith (· + ·) target source ++ target.drop source.length

def mergePendingDelta (target source : MetricDelta) : MetricDelta where
  count := target.count + source.count
  sum := target.sum + source.sum
  min :=
    if target.count.val = 0 then source.min
    else if 0 < source.count.val then Min.min target.min source.min
    else target.min
  max :=
    if target.count.val = 0 then source.max
    else if 0 < source.count.val then Max.max target.max source.max
    else target.max
  histogram := mergeHistogram target.histogram source.histogram

def statisticsMetricVersion : ℕ := 1

structure MetricValue where
  version : ℕ
  revision : U64
  count : U64
  sum : U64
  min : ℕ
  max : ℕ
  histogram : List U64
deriving DecidableEq, Repr

def emptyMetricValue : MetricValue where
  version := statisticsMetricVersion
  revision := 0
  count := 0
  sum := 0
  min := 0
  max := 0
  histogram := []

def mergeDelta (value : MetricValue) (delta : MetricDelta) : MetricValue :=
  { value with
    count := value.count + delta.count
    sum := value.sum + delta.sum
    min :=
      if value.count.val = 0 then delta.min
      else if 0 < delta.count.val then Min.min value.min delta.min
      else value.min
    max :=
      if value.count.val = 0 then delta.max
      else if 0 < delta.count.val then Max.max value.max delta.max
      else value.max
    histogram :=
      if delta.histogram.isEmpty then value.histogram
      else mergeHistogram value.histogram delta.histogram }

/-- What a value counts, without its version and revision. -/
def MetricValue.counted (value : MetricValue) : MetricDelta where
  count := value.count
  sum := value.sum
  min := value.min
  max := value.max
  histogram := value.histogram

theorem mergeHistogram_nil (target : List U64) : mergeHistogram target [] = target := by
  simp [mergeHistogram]

/-- The two ways to merge count alike: without a histogram to add there is nothing to resize. -/
theorem counted_mergeDelta (value : MetricValue) (delta : MetricDelta) :
    (mergeDelta value delta).counted = mergePendingDelta value.counted delta := by
  unfold mergeDelta mergePendingDelta MetricValue.counted
  by_cases hempty : delta.histogram = []
  · rw [hempty, mergeHistogram_nil]
    rfl
  · have hisEmpty : delta.histogram.isEmpty = false := by
      rw [List.isEmpty_eq_false_iff]
      exact hempty
    rw [hisEmpty]
    rfl

structure MetricPoint where
  bucketStartUnixSecs : ℕ
  identity : MetricIdentity
  value : MetricValue
deriving DecidableEq, Repr

def statisticsReportVersion : ℕ := 1

def maxStatisticsDimensions : ℕ := 12

def maxStatisticsDimensionBytes : ℕ := 96

structure StatisticsReportPayload where
  version : ℕ
  deploymentId : String
  reporterRole : Role
  reporterId : String
  bucketStartUnixSecs : ℕ
  bucketEndUnixSecs : ℕ
  metricFamily : String
  dimensions : List (String × String)
  reportSequence : ℕ
  value : MetricValue
deriving DecidableEq, Repr

/-- `bucket_start.saturating_add(FIVE_MINUTE_SECS)`. -/
def bucketEnd (bucketStart : ℕ) : ℕ := Min.min (bucketStart + fiveMinuteSecs) u64Max

def StatisticsReportPayload.validate (payload : StatisticsReportPayload) : Bool :=
  payload.version == statisticsReportVersion && !payload.deploymentId.isEmpty &&
    !payload.reporterId.isEmpty && !payload.metricFamily.isEmpty &&
    decide (payload.metricFamily.utf8ByteSize ≤ maxStatisticsDimensionBytes) &&
    payload.bucketStartUnixSecs % fiveMinuteSecs == 0 &&
    payload.bucketEndUnixSecs == bucketEnd payload.bucketStartUnixSecs &&
    payload.reportSequence != 0 && payload.value.version == statisticsMetricVersion &&
    payload.value.revision.val != 0 &&
    decide (payload.dimensions.length ≤ maxStatisticsDimensions) &&
    payload.dimensions.all (fun (key, value) => !key.isEmpty && !value.isEmpty &&
      decide (key.utf8ByteSize ≤ maxStatisticsDimensionBytes) &&
      decide (value.utf8ByteSize ≤ maxStatisticsDimensionBytes)) &&
    if payload.value.count.val = 0 then
      payload.value.sum.val == 0 && payload.value.min == 0 && payload.value.max == 0
    else
      decide (payload.value.min ≤ payload.value.max)

/-- What lies outside this repository: the length of a JSON text, and the digest of the JSON text of
a payload. -/
structure ReportCodec (δ : Type*) where
  identityJsonBytes : MetricIdentity → ℕ
  dimensionsJsonBytes : List (String × String) → ℕ
  sha256 : StatisticsReportPayload → δ

/-- The payload stands for its hexadecimal JSON text. -/
structure SignedStatisticsReport where
  certificatePem : String
  payload : StatisticsReportPayload
  signatureHex : String
deriving DecidableEq, Repr

/-- The signature is the one that the key makes of the payload, with fresh randomness. -/
def SignedStatisticsReport.sign (payload : StatisticsReportPayload) (certificatePem : String)
    (signatureHex : String) : Option SignedStatisticsReport :=
  if !payload.validate || certificatePem.isEmpty ||
      decide (64 * 1024 < certificatePem.utf8ByteSize) then
    none
  else
    some ⟨certificatePem, payload, signatureHex⟩

variable {δ : Type*}

def SignedStatisticsReport.digestSha256 (codec : ReportCodec δ) (report : SignedStatisticsReport) :
    δ :=
  codec.sha256 report.payload

structure VerifiedStatisticsReport (δ : Type*) where
  payload : StatisticsReportPayload
  digestSha256 : δ
deriving DecidableEq, Repr

/-- `SignedStatisticsReport::verify`, of a report whose signature is genuine. -/
def SignedStatisticsReport.verify (codec : ReportCodec δ) (report : SignedStatisticsReport) :
    Option (VerifiedStatisticsReport δ) :=
  if report.payload.validate then some ⟨report.payload, codec.sha256 report.payload⟩ else none

/-- `ordered_key` puts every part behind its length, so that the key stands for its parts. A part has
at most 65535 bytes. -/
def orderedKeyFits (partBytes : List ℕ) : Bool := partBytes.all (· ≤ 65535)

def metricKey (codec : ReportCodec δ) (bucketStart : ℕ) (identity : MetricIdentity) :
    Option MetricKey :=
  if orderedKeyFits [codec.identityJsonBytes identity] then some (bucketStart, identity) else none

structure AcceptedReportKey where
  deploymentId : String
  reporterRole : Role
  reporterId : String
  metricFamily : String
  dimensions : List (String × String)
  bucketStartUnixSecs : ℕ
deriving DecidableEq, Repr

def AcceptedReportKey.of (payload : StatisticsReportPayload) : AcceptedReportKey where
  deploymentId := payload.deploymentId
  reporterRole := payload.reporterRole
  reporterId := payload.reporterId
  metricFamily := payload.metricFamily
  dimensions := payload.dimensions
  bucketStartUnixSecs := payload.bucketStartUnixSecs

/-- The name of a role is a few bytes long. -/
def acceptedReportKey (codec : ReportCodec δ) (payload : StatisticsReportPayload) :
    Option AcceptedReportKey :=
  if orderedKeyFits [payload.deploymentId.utf8ByteSize, payload.reporterId.utf8ByteSize,
      payload.metricFamily.utf8ByteSize, codec.dimensionsJsonBytes payload.dimensions] then
    some (.of payload)
  else
    none

/-- `AcceptedReport`. -/
structure AcceptedReport (δ : Type*) where
  digestSha256 : δ
  payload : StatisticsReportPayload
deriving DecidableEq, Repr

inductive ReportAcceptance where
  | inserted
  | replaced
  | idempotent
  | stale
deriving DecidableEq, Repr

/-- `accept_statistics_report`, which is one write transaction. -/
def acceptStatisticsReport [DecidableEq δ] (codec : ReportCodec δ)
    (table : Table AcceptedReportKey (AcceptedReport δ)) (report : VerifiedStatisticsReport δ) :
    Option (ReportAcceptance × Table AcceptedReportKey (AcceptedReport δ)) :=
  match acceptedReportKey codec report.payload with
  | none => none
  | some key =>
    let accepted := ⟨report.digestSha256, report.payload⟩
    match table.lookup key with
    | some existing =>
      if report.payload.value.revision.val < existing.payload.value.revision.val then
        some (.stale, table)
      else if existing.payload.value.revision = report.payload.value.revision then
        if existing.digestSha256 = report.digestSha256 then some (.idempotent, table) else none
      else
        some (.replaced, table.insert key accepted)
    | none => some (.inserted, table.insert key accepted)

end FlowSplice.Statistics
