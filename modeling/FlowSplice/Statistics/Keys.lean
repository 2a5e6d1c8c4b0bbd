import FlowSplice.Lib.JsonText
import FlowSplice.Lib.Listing
import FlowSplice.Lib.OrderedKey
import FlowSplice.Statistics.Rollup

/-! The bytes of the keys of statistics: `ordered_key`, `metric_key` and `accepted_report_key` of
`flowsplice-storage/src/lib.rs`, and what the scans of the tables return. -/
namespace FlowSplice.Statistics

/-- `ordered_key`, of the bytes of its parts: a `u64`, and each part behind its length as a `u16`. -/
def orderedKey (parts : List (List UInt8)) (timestamp : ℕ) : Option (List UInt8) :=
  parts.foldlM (fun key part =>
      if part.length ≤ 65535 then some (key ++ (BigEndian.toBytes 2 part.length ++ part)) else none)
    (BigEndian.toBytes 8 timestamp)

/-- What lies outside this repository: the JSON texts that are parts of keys. -/
structure KeyText where
  identity : MetricIdentity → List UInt8
  dimensions : List (String × String) → List UInt8

/-- A JSON text can be read back. -/
structure KeyText.ReadsBack (text : KeyText) : Prop where
  identity : ∃ read : List UInt8 → Option MetricIdentity, ∀ identity,
    read (text.identity identity) = some identity
  dimensions : ∃ read : List UInt8 → Option (List (String × String)), ∀ dimensions,
    read (text.dimensions dimensions) = some dimensions

/-- The name of the variant. -/
def roleName : Role → String
  | .server => "Server"
  | .relay => "Relay"
  | .home => "Home"
  | .travel => "Travel"

def metricKeyBytes (text : KeyText) (bucketStart : ℕ) (identity : MetricIdentity) :
    Option (List UInt8) :=
  orderedKey [text.identity identity] bucketStart

def acceptedReportParts (text : KeyText) (key : AcceptedReportKey) : List (List UInt8) :=
  [stringBytes key.deploymentId, stringBytes (roleName key.reporterRole),
    stringBytes key.reporterId, stringBytes key.metricFamily, text.dimensions key.dimensions]

def acceptedReportKeyBytes (text : KeyText) (key : AcceptedReportKey) : Option (List UInt8) :=
  orderedKey (acceptedReportParts text key) key.bucketStartUnixSecs

/-- A table of redb, which is ordered by the bytes of its keys. -/
abbrev Rows (α : Type*) := Table (List UInt8) α

/-- `StateStore::scan_prefix`. -/
def scanPrefix {α : Type*} (rows : Rows α) (start : List UInt8) : List (List UInt8 × α) :=
  ((rows.entries.map fun e => (e.1, e.2)).insertionSort fun left right => left.1 ≤ right.1).filter
    fun e => start.isPrefixOf e.1

/-- What `query` and `query_accepted_reports` share: the records of a time range, sorted. -/
def queryBy {α : Type*} (le : α → α → Bool) (time : α → ℕ) (rows : Rows α) (start stop : ℕ) :
    List α :=
  (((scanPrefix rows []).map (·.2)).filter fun a => decide (start ≤ time a ∧ time a < stop)).mergeSort
    le

/-- The order of `LocalStatistics::query`. -/
def MetricPoint.le (left right : MetricPoint) : Bool :=
  ((compare left.bucketStartUnixSecs right.bucketStartUnixSecs).then
    ((compare left.identity.metricFamily right.identity.metricFamily).then
      (List.compareLex (compareLex (compareOn Prod.fst) (compareOn Prod.snd))
        left.identity.dimensions right.identity.dimensions))).isLE

/-- `LocalStatistics::query`. -/
def query (metric5m : Rows MetricPoint) (start stop : ℕ) : List MetricPoint :=
  queryBy MetricPoint.le (·.bucketStartUnixSecs) metric5m start stop

variable {δ : Type*}

/-- The order of `query_accepted_reports`. -/
def AcceptedReport.le (left right : AcceptedReport δ) : Bool :=
  ((compare left.payload.bucketStartUnixSecs right.payload.bucketStartUnixSecs).then
    (compare left.payload.reporterId right.payload.reporterId)).isLE

/-- `StateStore::query_accepted_reports`. -/
def queryAcceptedReports (acceptedReports : Rows (AcceptedReport δ)) (start stop : ℕ) :
    List (AcceptedReport δ) :=
  queryBy AcceptedReport.le (·.payload.bucketStartUnixSecs) acceptedReports start stop

/-- `accept_statistics_report`, on the rows. -/
def acceptReportRow [DecidableEq δ] (text : KeyText) (rows : Rows (AcceptedReport δ))
    (report : VerifiedStatisticsReport δ) : Option (ReportAcceptance × Rows (AcceptedReport δ)) :=
  match acceptedReportKeyBytes text (.of report.payload) with
  | none => none
  | some key =>
    let accepted := ⟨report.digestSha256, report.payload⟩
    match rows.lookup key with
    | some existing =>
      if report.payload.value.revision.val < existing.payload.value.revision.val then
        some (.stale, rows)
      else if existing.payload.value.revision = report.payload.value.revision then
        if existing.digestSha256 = report.digestSha256 then some (.idempotent, rows) else none
      else
        some (.replaced, rows.insert key accepted)
    | none => some (.inserted, rows.insert key accepted)

/-- The batch of `build_flush_batch`, with points of any values. -/
def putPointRows (text : KeyText) (metric5m : Rows MetricPoint) (points : List MetricPoint) :
    Option (Rows MetricPoint) :=
  (points.mapM fun point =>
    (metricKeyBytes text point.bucketStartUnixSecs point.identity).map fun key => (key, point)).map
      metric5m.insertAll

/-! The keys. -/

section Keys
variable {text : KeyText} {parts parts' : List (List UInt8)} {timestamp timestamp' : ℕ}
  {key : List UInt8}

private theorem foldlM_pieces (start : List UInt8) :
    parts.foldlM (fun key part => if part.length ≤ 65535 then
        some (key ++ (BigEndian.toBytes 2 part.length ++ part)) else none) start =
      if ∀ part ∈ parts, part.length ≤ 65535 then
        some (start ++ parts.flatMap (OrderedKey.piece 2)) else none := by
  induction parts generalizing start with
  | nil => simp
  | cons part parts ih =>
    rw [List.foldlM_cons]
    by_cases hfits : part.length ≤ 65535
    · rw [if_pos hfits]
      show List.foldlM _ (start ++ (BigEndian.toBytes 2 part.length ++ part)) parts = _
      rw [ih]
      simp [hfits, OrderedKey.piece, List.append_assoc]
    · rw [if_neg hfits, if_neg (fun h => hfits (h part List.mem_cons_self))]
      rfl

theorem orderedKey_eq (parts : List (List UInt8)) (timestamp : ℕ) :
    orderedKey parts timestamp = if ∀ part ∈ parts, part.length ≤ 65535 then
      some (OrderedKey.encode 8 2 timestamp parts) else none :=
  foldlM_pieces _

theorem orderedKey_eq_some : orderedKey parts timestamp = some key ↔
    (∀ part ∈ parts, part.length < 256 ^ 2) ∧ OrderedKey.encode 8 2 timestamp parts = key := by
  rw [orderedKey_eq]
  by_cases hfits : ∀ part ∈ parts, part.length ≤ 65535
  · rw [if_pos hfits, Option.some_inj]
    exact ⟨fun h => ⟨fun part hpart => by have := hfits part hpart; omega, h⟩, fun h => h.2⟩
  · rw [if_neg hfits]
    constructor
    · intro h
      cases h
    · rintro ⟨hall, -⟩
      exact absurd (fun part hpart => by have := hall part hpart; omega) hfits

theorem orderedKey_inj (ht : timestamp < 2 ^ 64) (ht' : timestamp' < 2 ^ 64)
    (h : orderedKey parts timestamp = some key) (h' : orderedKey parts' timestamp' = some key) :
    timestamp = timestamp' ∧ parts = parts' := by
  obtain ⟨hparts, hkey⟩ := orderedKey_eq_some.mp h
  obtain ⟨hparts', hkey'⟩ := orderedKey_eq_some.mp h'
  exact OrderedKey.encode_inj ht ht' hparts hparts' (by omega) (hkey.trans hkey'.symm)

theorem roleName_inj {role role' : Role} (h : roleName role = roleName role') : role = role' := by
  cases role <;> cases role' <;> first | rfl | exact absurd h (by decide)

theorem KeyText.ReadsBack.identity_inj (h : text.ReadsBack) {identity identity' : MetricIdentity}
    (heq : text.identity identity = text.identity identity') : identity = identity' := by
  obtain ⟨read, hread⟩ := h.identity
  have hsame := hread identity
  rw [heq, hread identity'] at hsame
  exact (Option.some.inj hsame).symm

theorem KeyText.ReadsBack.dimensions_inj (h : text.ReadsBack)
    {dimensions dimensions' : List (String × String)}
    (heq : text.dimensions dimensions = text.dimensions dimensions') : dimensions = dimensions' := by
  obtain ⟨read, hread⟩ := h.dimensions
  have hsame := hread dimensions
  rw [heq, hread dimensions'] at hsame
  exact (Option.some.inj hsame).symm

end Keys

/-! The tables. -/

/-- The bytes of a key whose time is a `u64`. -/
def metricRow (text : KeyText) (key : MetricKey) : Option (List UInt8) :=
  if key.1 < 2 ^ 64 then metricKeyBytes text key.1 key.2 else none

def reportRow (text : KeyText) (key : AcceptedReportKey) : Option (List UInt8) :=
  if key.bucketStartUnixSecs < 2 ^ 64 then acceptedReportKeyBytes text key else none

section Rows
variable {text : KeyText} {bytes : List UInt8}

theorem metricRow_separates (h : text.ReadsBack) : Table.Separates (metricRow text) := by
  intro key key' bytes hkey hkey'
  unfold metricRow at hkey hkey'
  split_ifs at hkey with ht
  split_ifs at hkey' with ht'
  obtain ⟨htime, hparts⟩ := orderedKey_inj ht ht' hkey hkey'
  have hidentity := h.identity_inj (List.cons.inj hparts).1
  exact Prod.ext htime hidentity

theorem reportRow_separates (h : text.ReadsBack) : Table.Separates (reportRow text) := by
  intro key key' bytes hkey hkey'
  unfold reportRow at hkey hkey'
  split_ifs at hkey with ht
  split_ifs at hkey' with ht'
  obtain ⟨htime, hparts⟩ := orderedKey_inj ht ht' hkey hkey'
  simp only [acceptedReportParts, List.cons.injEq, and_true] at hparts
  obtain ⟨hdeployment, hrole, hreporter, hfamily, hdimensions⟩ := hparts
  cases key
  cases key'
  simp only [AcceptedReportKey.mk.injEq]
  exact ⟨stringBytes_injective hdeployment, roleName_inj (stringBytes_injective hrole),
    stringBytes_injective hreporter, stringBytes_injective hfamily, h.dimensions_inj hdimensions,
    htime⟩

/-- A row begins with the bytes of its time. -/
def Timed {κ : Type*} (row : κ → Option (List UInt8)) (bucket : κ → ℕ) : Prop :=
  ∀ key bytes, row key = some bytes →
    bucket key < 2 ^ 64 ∧ ∃ parts, OrderedKey.encode 8 2 (bucket key) parts = bytes

theorem metricRow_timed : Timed (metricRow text) Prod.fst := by
  intro key bytes hkey
  unfold metricRow at hkey
  split_ifs at hkey with ht
  exact ⟨ht, _, (orderedKey_eq_some.mp hkey).2⟩

theorem reportRow_timed : Timed (reportRow text) (·.bucketStartUnixSecs) := by
  intro key bytes hkey
  unfold reportRow at hkey
  split_ifs at hkey with ht
  exact ⟨ht, _, (orderedKey_eq_some.mp hkey).2⟩

end Rows

/-- The rows hold, for each key, the record that was last written under it. -/
structure Recorded {κ α : Type*} [DecidableEq κ] (rows : Rows α) (table : Table κ α)
    (row : κ → Option (List UInt8)) (key : α → κ) : Prop where
  stored : rows.StoredBy table row
  keyed : table.KeyedBy key

section Scans
variable {κ α : Type*} [DecidableEq κ] {rows : Rows α} {table : Table κ α}
  {row : κ → Option (List UInt8)} {key : α → κ} {bucket : κ → ℕ} {start : List UInt8}

theorem mem_scanPrefix {bytes : List UInt8} {a : α} :
    (bytes, a) ∈ scanPrefix rows start ↔ start <+: bytes ∧ rows.lookup bytes = some a := by
  unfold scanPrefix
  rw [List.mem_filter, List.mem_insertionSort, List.isPrefixOf_iff_prefix, Table.lookup_eq_some,
    and_comm, List.mem_map]
  constructor
  · rintro ⟨hstart, ⟨⟨bytes', a'⟩, hmem, heq⟩⟩
    obtain ⟨rfl, rfl⟩ := Prod.mk.inj heq
    exact ⟨hstart, hmem⟩
  · rintro ⟨hstart, hmem⟩
    exact ⟨hstart, ⟨bytes, a⟩, hmem, rfl⟩

/-- A scan goes through the rows in the order of their bytes. -/
theorem pairwise_scanPrefix (rows : Rows α) (start : List UInt8) :
    (scanPrefix rows start).Pairwise fun left right => left.1 < right.1 := by
  have htotal : Std.Total fun left right : List UInt8 × α => left.1 ≤ right.1 :=
    ⟨fun left right => Std.le_total⟩
  have htrans : IsTrans (List UInt8 × α) fun left right => left.1 ≤ right.1 :=
    ⟨fun _ _ _ h h' => Std.le_trans h h'⟩
  have hle := List.pairwise_insertionSort (fun left right : List UInt8 × α => left.1 ≤ right.1)
    (rows.entries.map fun e => (e.1, e.2))
  have hperm := List.perm_insertionSort (fun left right : List UInt8 × α => left.1 ≤ right.1)
    (rows.entries.map fun e => (e.1, e.2))
  have hnodup : ((rows.entries.map fun e => (e.1, e.2)).map (·.1)).Nodup := by
    rw [List.map_map]
    exact rows.nodupKeys
  have hne := List.pairwise_map.mp ((hperm.map (·.1)).nodup_iff.mpr hnodup)
  apply List.Pairwise.sublist List.filter_sublist
  apply (hle.and hne).imp
  intro left right hboth
  exact Std.lt_of_le_of_ne hboth.1 hboth.2

namespace Recorded

theorem mem_values (h : Recorded rows table row key) {a : α} :
    a ∈ (scanPrefix rows start).map (·.2) ↔
      ∃ bytes, row (key a) = some bytes ∧ start <+: bytes ∧ table.lookup (key a) = some a := by
  rw [List.mem_map]
  constructor
  · rintro ⟨⟨bytes, a'⟩, hmem, rfl⟩
    obtain ⟨hstart, hlookup⟩ := mem_scanPrefix.mp hmem
    obtain ⟨k, hk, hfound⟩ := h.stored.stored bytes a' hlookup
    have hkey := h.keyed k a' hfound
    subst hkey
    exact ⟨bytes, hk, hstart, hfound⟩
  · rintro ⟨bytes, hbytes, hstart, hfound⟩
    refine ⟨(bytes, a), mem_scanPrefix.mpr ⟨hstart, ?_⟩, rfl⟩
    rw [h.stored.find _ _ hbytes]
    exact hfound

/-- What is stored is in the scan of everything. -/
theorem mem_values_nil (h : Recorded rows table row key) {a : α} :
    a ∈ (scanPrefix rows []).map (·.2) ↔ table.lookup (key a) = some a := by
  rw [h.mem_values]
  constructor
  · rintro ⟨_, -, -, hfound⟩
    exact hfound
  · intro hfound
    obtain ⟨bytes, hbytes⟩ := h.stored.keyed _ _ hfound
    exact ⟨bytes, hbytes, List.nil_prefix, hfound⟩

/-- The scan of the bytes of a time has the records of that time. -/
theorem mem_values_bucket (h : Recorded rows table row key)
    (htimed : Timed row bucket) {time : ℕ} (htime : time < 2 ^ 64) {a : α} :
    a ∈ (scanPrefix rows (BigEndian.toBytes 8 time)).map (·.2) ↔
      bucket (key a) = time ∧ table.lookup (key a) = some a := by
  rw [h.mem_values]
  constructor
  · rintro ⟨bytes, hbytes, hstart, hfound⟩
    obtain ⟨hbound, parts, rfl⟩ := htimed _ _ hbytes
    exact ⟨(OrderedKey.prefix_encode hbound htime).mp hstart, hfound⟩
  · rintro ⟨hbucket, hfound⟩
    obtain ⟨bytes, hbytes⟩ := h.stored.keyed _ _ hfound
    obtain ⟨hbound, parts, rfl⟩ := htimed _ _ hbytes
    exact ⟨_, hbytes, (OrderedKey.prefix_encode hbound htime).mpr hbucket, hfound⟩

theorem row_of_mem (h : Recorded rows table row key) {e : List UInt8 × α}
    (he : e ∈ scanPrefix rows start) : row (key e.2) = some e.1 := by
  obtain ⟨-, hlookup⟩ := mem_scanPrefix.mp he
  obtain ⟨k, hk, hfound⟩ := h.stored.stored e.1 e.2 hlookup
  have hkey := h.keyed k e.2 hfound
  rw [hkey]
  exact hk

/-- No record comes twice. -/
theorem nodup_values (h : Recorded rows table row key) :
    (((scanPrefix rows start).map (·.2)).map key).Nodup := by
  have hpair := pairwise_scanPrefix rows start
  rw [List.map_map, List.nodup_iff_pairwise_ne, List.pairwise_map]
  apply hpair.imp_of_mem
  intro left right hleft hright hlt heq
  have hl := h.row_of_mem hleft
  have hr := h.row_of_mem hright
  simp only [Function.comp_apply] at heq
  rw [heq, hr] at hl
  rw [Option.some.inj hl] at hlt
  exact List.lt_irrefl _ hlt

/-- The records come in the order of their times. -/
theorem pairwise_bucket (h : Recorded rows table row key) (htimed : Timed row bucket) :
    ((scanPrefix rows start).map (·.2)).Pairwise fun left right =>
      bucket (key left) ≤ bucket (key right) := by
  rw [List.pairwise_map]
  apply (pairwise_scanPrefix rows start).imp_of_mem
  intro left right hleft hright hlt
  obtain ⟨hbound, parts, hl⟩ := htimed _ _ (h.row_of_mem hleft)
  obtain ⟨hbound', parts', hr⟩ := htimed _ _ (h.row_of_mem hright)
  by_contra hgt
  have hback : right.1 < left.1 := by
    rw [← hl, ← hr]
    exact OrderedKey.encode_lt (by omega) hbound
  exact List.lt_irrefl _ (List.lt_trans hlt hback)

end Recorded

end Scans

/-! The queries. -/

/-- Records that are sorted by a time first come in the order of their times. -/
theorem pairwise_mergeSort_time {α : Type*} (time : α → ℕ) (cmp : α → α → Ordering)
    [Std.TransCmp cmp] (l : List α) :
    (l.mergeSort fun left right =>
      ((compare (time left) (time right)).then (cmp left right)).isLE).Pairwise fun left right =>
        time left ≤ time right := by
  have hsorted := @List.pairwise_mergeSort α
    (fun left right => (compareLex (compareOn time) cmp left right).isLE)
    (fun a b c => Std.TransCmp.isLE_trans) (fun a b => ?_) l
  · apply hsorted.imp
    intro left right hle
    have htime : (compare (time left) (time right)).isLE = true :=
      Ordering.isLE_left_of_isLE_then hle
    exact Nat.isLE_compare.mp htime
  · have hswap : compareLex (compareOn time) cmp b a =
        (compareLex (compareOn time) cmp a b).swap := Std.OrientedCmp.eq_swap
    rw [hswap]
    cases compareLex (compareOn time) cmp a b <;> rfl

/-- The scans of a table return what was last written under each key, for the times that were asked
for, once and in the order of the times. -/
structure ExactScans {κ α : Type*} [DecidableEq κ] (rows : Rows α) (table : Table κ α)
    (row : κ → Option (List UInt8)) (key : α → κ) (bucket : κ → ℕ) (queried : ℕ → ℕ → List α) :
    Prop where
  find : ∀ k bytes, row k = some bytes → rows.lookup bytes = table.lookup k
  bucketScan : ∀ time, time < 2 ^ 64 → ∀ a,
    a ∈ (scanPrefix rows (BigEndian.toBytes 8 time)).map (·.2) ↔
      bucket (key a) = time ∧ table.lookup (key a) = some a
  scanOrder : ∀ start, ((scanPrefix rows start).map (·.2)).Pairwise fun left right =>
    bucket (key left) ≤ bucket (key right)
  scanOnce : ∀ start, (((scanPrefix rows start).map (·.2)).map key).Nodup
  query : ∀ start stop a, a ∈ queried start stop ↔
    (start ≤ bucket (key a) ∧ bucket (key a) < stop) ∧ table.lookup (key a) = some a
  queryOrder : ∀ start stop, (queried start stop).Pairwise fun left right =>
    bucket (key left) ≤ bucket (key right)
  queryOnce : ∀ start stop, ((queried start stop).map key).Nodup

theorem Recorded.exactScans {κ α : Type*} [DecidableEq κ] {rows : Rows α} {table : Table κ α}
    {row : κ → Option (List UInt8)} {key : α → κ} {bucket : κ → ℕ} (cmp : α → α → Ordering)
    [Std.TransCmp cmp] (h : Recorded rows table row key) (htimed : Timed row bucket) :
    ExactScans rows table row key bucket (queryBy (fun left right =>
      ((compare (bucket (key left)) (bucket (key right))).then (cmp left right)).isLE)
        (fun a => bucket (key a)) rows) where
  find := h.stored.find
  bucketScan time htime a := h.mem_values_bucket htimed htime
  scanOrder start := h.pairwise_bucket htimed
  scanOnce start := h.nodup_values
  query start stop a := by
    unfold queryBy
    rw [List.mem_mergeSort, List.mem_filter, h.mem_values_nil, decide_eq_true_eq, and_comm]
  queryOrder start stop := pairwise_mergeSort_time (fun a => bucket (key a)) cmp _
  queryOnce start stop := by
    unfold queryBy
    have hperm := List.mergeSort_perm (((scanPrefix rows []).map (·.2)).filter fun a =>
        decide (start ≤ bucket (key a) ∧ bucket (key a) < stop))
      (fun left right => ((compare (bucket (key left)) (bucket (key right))).then
        (cmp left right)).isLE)
    rw [(hperm.map key).nodup_iff]
    have hsub : ((((scanPrefix rows []).map (·.2)).filter fun a =>
        decide (start ≤ bucket (key a) ∧ bucket (key a) < stop)).map key).Sublist
          (((scanPrefix rows []).map (·.2)).map key) := List.filter_sublist.map key
    exact hsub.nodup h.nodup_values

/-- The order of identities. -/
def compareIdentity (left right : MetricPoint) : Ordering :=
  (compare left.identity.metricFamily right.identity.metricFamily).then
    (List.compareLex (compareLex (compareOn Prod.fst) (compareOn Prod.snd))
      left.identity.dimensions right.identity.dimensions)

instance : Std.TransCmp compareIdentity := by
  have hdimensions : Std.TransCmp (List.compareLex (compareLex
      (compareOn (Prod.fst : String × String → String)) (compareOn Prod.snd))) := inferInstance
  have hright : Std.TransCmp fun left right : MetricPoint => List.compareLex (compareLex
      (compareOn Prod.fst) (compareOn Prod.snd)) left.identity.dimensions
        right.identity.dimensions :=
    { eq_swap := hdimensions.eq_swap
      isLE_trans := hdimensions.isLE_trans }
  exact inferInstanceAs (Std.TransCmp (compareLex (compareOn fun point : MetricPoint =>
    point.identity.metricFamily) fun left right => List.compareLex (compareLex
      (compareOn Prod.fst) (compareOn Prod.snd)) left.identity.dimensions
        right.identity.dimensions))

/-! Runs. -/

def MetricPoint.key (point : MetricPoint) : MetricKey := (point.bucketStartUnixSecs, point.identity)

def AcceptedReport.key (report : AcceptedReport δ) : AcceptedReportKey := .of report.payload

/-- The tables by the bytes of their keys, and what was written by the keys themselves. -/
structure StatisticsStore (δ : Type*) where
  metric5m : Rows MetricPoint := ∅
  acceptedReports : Rows (AcceptedReport δ) := ∅
  points : Table MetricKey MetricPoint := ∅
  accepted : Table AcceptedReportKey (AcceptedReport δ) := ∅

inductive StoreAction (δ : Type*) where
  | put (points : List MetricPoint)
  | accept (report : VerifiedStatisticsReport δ)

/-- Times are `u64`. -/
def StoreAction.InRange : StoreAction δ → Prop
  | .put points => ∀ point ∈ points, point.bucketStartUnixSecs < 2 ^ 64
  | .accept report => report.payload.bucketStartUnixSecs < 2 ^ 64

def KeyText.codec (text : KeyText) (sha256 : StatisticsReportPayload → δ) : ReportCodec δ where
  identityJsonBytes identity := (text.identity identity).length
  dimensionsJsonBytes dimensions := (text.dimensions dimensions).length
  sha256 := sha256

namespace StatisticsStore
variable [DecidableEq δ] (text : KeyText) (sha256 : StatisticsReportPayload → δ)

def step (s : StatisticsStore δ) : StoreAction δ → Option (StatisticsStore δ)
  | .put points =>
    (putPointRows text s.metric5m points).map fun metric5m =>
      { s with
        metric5m := metric5m
        points := s.points.insertAll (points.map fun point => (point.key, point)) }
  | .accept report =>
    (acceptReportRow text s.acceptedReports report).map fun acceptance =>
      { s with
        acceptedReports := acceptance.2
        accepted := (acceptStatisticsReport (text.codec sha256) s.accepted report).elim s.accepted
          (·.2) }

def machine : Machine (StatisticsStore δ) (StoreAction δ) where
  start := {}
  step := step text sha256

variable {text : KeyText} {sha256 : StatisticsReportPayload → δ} {s s' : StatisticsStore δ}

omit [DecidableEq δ] in
/-- A report has the bytes of a key exactly if it has a key. -/
theorem acceptedReportKeyBytes_isSome (text : KeyText) (sha256 : StatisticsReportPayload → δ)
    (payload : StatisticsReportPayload) : (acceptedReportKeyBytes text (.of payload)).isSome =
      (acceptedReportKey (text.codec sha256) payload).isSome := by
  have hname : (stringBytes (roleName payload.reporterRole)).length ≤ 65535 := by
    cases payload.reporterRole <;> decide
  unfold acceptedReportKeyBytes acceptedReportKey
  rw [orderedKey_eq]
  have hiff : (∀ part ∈ acceptedReportParts text (.of payload), part.length ≤ 65535) ↔
      orderedKeyFits [payload.deploymentId.utf8ByteSize, payload.reporterId.utf8ByteSize,
        payload.metricFamily.utf8ByteSize,
        (text.codec sha256).dimensionsJsonBytes payload.dimensions] = true := by
    simp only [acceptedReportParts, AcceptedReportKey.of, List.forall_mem_cons, orderedKeyFits,
      List.all_cons, Bool.and_eq_true, decide_eq_true_eq, hname, true_and]
    constructor
    · rintro ⟨hdeployment, hreporter, hfamily, hdimensions, -⟩
      exact ⟨hdeployment, hreporter, hfamily, hdimensions, rfl⟩
    · rintro ⟨hdeployment, hreporter, hfamily, hdimensions, -⟩
      exact ⟨hdeployment, hreporter, hfamily, hdimensions, by simp⟩
  by_cases hfits : ∀ part ∈ acceptedReportParts text (.of payload), part.length ≤ 65535
  · rw [if_pos hfits, if_pos (hiff.mp hfits)]
    rfl
  · rw [if_neg hfits, if_neg fun h => hfits (hiff.mpr h)]
    rfl

/-- What both the rows and the keys make of a report. -/
def SameAcceptance (text : KeyText) (rows : Option (ReportAcceptance × Rows (AcceptedReport δ)))
    (table : Option (ReportAcceptance × Table AcceptedReportKey (AcceptedReport δ))) : Prop :=
  rows.map (·.1) = table.map (·.1) ∧ ∀ acceptance acceptance', rows = some acceptance →
    table = some acceptance' →
      Recorded acceptance.2 acceptance'.2 (reportRow text) AcceptedReport.key

/-- A report is accepted by its bytes as it is by its key. -/
theorem sameAcceptance (sha256 : StatisticsReportPayload → δ) (htext : text.ReadsBack) {rows : Rows (AcceptedReport δ)}
    {table : Table AcceptedReportKey (AcceptedReport δ)}
    (h : Recorded rows table (reportRow text) AcceptedReport.key)
    {report : VerifiedStatisticsReport δ} (htime : report.payload.bucketStartUnixSecs < 2 ^ 64) :
    SameAcceptance text (acceptReportRow text rows report)
      (acceptStatisticsReport (text.codec sha256) table report) := by
  have hsome := acceptedReportKeyBytes_isSome text sha256 report.payload
  unfold acceptReportRow acceptStatisticsReport
  cases hbytes : acceptedReportKeyBytes text (.of report.payload) with
  | none =>
    rw [hbytes] at hsome
    have hnone : acceptedReportKey (text.codec sha256) report.payload = none := by
      simpa using hsome.symm
    rw [hnone]
    exact ⟨rfl, fun _ _ h => by cases h⟩
  | some bytes =>
    rw [hbytes] at hsome
    have hkey : acceptedReportKey (text.codec sha256) report.payload = some (.of report.payload) := by
      unfold acceptedReportKey at hsome ⊢
      split_ifs at hsome ⊢ with hfits
      · rfl
      · cases hsome
    have hrow : reportRow text (.of report.payload) = some bytes := by
      unfold reportRow
      rw [if_pos (by exact htime)]
      exact hbytes
    have hinsert : Recorded (rows.insert bytes ⟨report.digestSha256, report.payload⟩)
        (table.insert (.of report.payload) ⟨report.digestSha256, report.payload⟩)
        (reportRow text) AcceptedReport.key :=
      ⟨h.stored.insert (reportRow_separates htext) _ hrow,
        h.keyed.insert (⟨report.digestSha256, report.payload⟩ : AcceptedReport δ)⟩
    rw [hkey]
    dsimp only
    rw [h.stored.find _ _ hrow]
    cases table.lookup (.of report.payload) with
    | none => exact ⟨rfl, fun _ _ hr ht => by cases hr; cases ht; exact hinsert⟩
    | some existing =>
      dsimp only
      split_ifs
      · exact ⟨rfl, fun _ _ hr ht => by cases hr; cases ht; exact h⟩
      · exact ⟨rfl, fun _ _ hr ht => by cases hr; cases ht; exact h⟩
      · exact ⟨rfl, fun _ _ hr => by cases hr⟩
      · exact ⟨rfl, fun _ _ hr ht => by cases hr; cases ht; exact hinsert⟩

/-- Both tables hold under the bytes of each key what was written under the key. -/
structure Inv (text : KeyText) (s : StatisticsStore δ) : Prop where
  points : Recorded s.metric5m s.points (metricRow text) MetricPoint.key
  reports : Recorded s.acceptedReports s.accepted (reportRow text) AcceptedReport.key

omit [DecidableEq δ] in
theorem Inv.start : Inv text ({} : StatisticsStore δ) :=
  ⟨⟨Table.StoredBy.empty, Table.KeyedBy.empty⟩, ⟨Table.StoredBy.empty, Table.KeyedBy.empty⟩⟩

theorem Inv.step {a : StoreAction δ} (hi : s.Inv text) (htext : text.ReadsBack) (ha : a.InRange)
    (h : s.step text sha256 a = some s') : s'.Inv text := by
  cases a with
  | put points =>
    obtain ⟨metric5m, hput, rfl⟩ := Option.map_eq_some_iff.mp h
    obtain ⟨written, hwritten, rfl⟩ := Option.map_eq_some_iff.mp hput
    refine ⟨⟨?_, ?_⟩, hi.reports⟩
    · apply hi.points.stored.insertAll (metricRow_separates htext)
      rw [← hwritten]
      apply Keyed.mapM_congr
      intro point hpoint
      have hrow : metricRow text point.key = metricKeyBytes text point.bucketStartUnixSecs
          point.identity := if_pos (ha point hpoint)
      rw [hrow]
    · exact hi.points.keyed.insertAll points
  | accept report =>
    obtain ⟨acceptance, haccept, rfl⟩ := Option.map_eq_some_iff.mp h
    obtain ⟨hsame, hrecorded⟩ := sameAcceptance sha256 htext hi.reports ha
    refine ⟨hi.points, ?_⟩
    cases htable : acceptStatisticsReport (text.codec sha256) s.accepted report with
    | none =>
      rw [haccept, htable] at hsame
      cases hsame
    | some acceptance' => exact hrecorded _ _ haccept htable

theorem inv_of_reachable (htext : text.ReadsBack)
    (h : (machine text sha256).ReachableWhere (fun _ a => a.InRange) s) : s.Inv text := by
  apply h.invariant Inv.start
  intro t a t' _ ht ha hstep
  exact ht.step htext ha hstep

/-- Equal keys are made of equal times, identities and reporters, and keys compare as their times.
So after all writes each key finds what was last written for it, reports are taken for new, newer or
old as their reporters and metrics say, and the scans of a time, and of a range of times, return
exactly what was written for it. -/
theorem exact_of_readsBack (htext : text.ReadsBack) :
    (∀ key key' : MetricKey, ∀ bytes, key.1 < 2 ^ 64 → key'.1 < 2 ^ 64 →
      metricKeyBytes text key.1 key.2 = some bytes →
      metricKeyBytes text key'.1 key'.2 = some bytes → key = key') ∧
    (∀ key key' bytes, key.bucketStartUnixSecs < 2 ^ 64 → key'.bucketStartUnixSecs < 2 ^ 64 →
      acceptedReportKeyBytes text key = some bytes →
      acceptedReportKeyBytes text key' = some bytes → key = key') ∧
    (∀ parts parts' time time' bytes bytes', time < time' → time' < 2 ^ 64 →
      orderedKey parts time = some bytes → orderedKey parts' time' = some bytes' →
        bytes < bytes') ∧
    (∀ parts time bytes start stop, time < 2 ^ 64 → start < 2 ^ 64 → stop < 2 ^ 64 →
      orderedKey parts time = some bytes →
      (BigEndian.toBytes 8 start ≤ bytes ∧ bytes < BigEndian.toBytes 8 stop ↔
        start ≤ time ∧ time < stop)) ∧
    ∀ s, (machine text sha256).ReachableWhere (fun _ a => a.InRange) s →
      ExactScans s.metric5m s.points (metricRow text) MetricPoint.key Prod.fst
        (Statistics.query s.metric5m) ∧
      ExactScans s.acceptedReports s.accepted (reportRow text) AcceptedReport.key
        (·.bucketStartUnixSecs) (queryAcceptedReports s.acceptedReports) ∧
      ∀ report, report.payload.bucketStartUnixSecs < 2 ^ 64 →
        (acceptReportRow text s.acceptedReports report).map (·.1) =
          (acceptStatisticsReport (text.codec sha256) s.accepted report).map (·.1) := by
  refine ⟨?_, ?_, ?_, ?_, ?_⟩
  · intro key key' bytes htime htime' hkey hkey'
    apply metricRow_separates htext key key' bytes
    · unfold metricRow
      rwa [if_pos htime]
    · unfold metricRow
      rwa [if_pos htime']
  · intro key key' bytes htime htime' hkey hkey'
    apply reportRow_separates htext key key' bytes
    · unfold reportRow
      rwa [if_pos htime]
    · unfold reportRow
      rwa [if_pos htime']
  · intro parts parts' time time' bytes bytes' hlt htime' hkey hkey'
    rw [← (orderedKey_eq_some.mp hkey).2, ← (orderedKey_eq_some.mp hkey').2]
    exact OrderedKey.encode_lt hlt htime'
  · intro parts time bytes start stop htime hstart hstop hkey
    rw [← (orderedKey_eq_some.mp hkey).2]
    exact OrderedKey.encode_between htime hstart hstop
  · intro s hs
    have hi := inv_of_reachable htext hs
    refine ⟨hi.points.exactScans compareIdentity metricRow_timed, ?_, ?_⟩
    · have hcmp : Std.TransCmp (compareOn fun report : AcceptedReport δ =>
          report.payload.reporterId) := inferInstance
      exact hi.reports.exactScans (compareOn fun report : AcceptedReport δ =>
        report.payload.reporterId) reportRow_timed
    · intro report htime
      exact (sameAcceptance sha256 htext hi.reports htime).1

end StatisticsStore

/-! Two Relays that report the same metric. -/

def entryBytes (dimensions : List (String × String)) : List (List UInt8 × List UInt8) :=
  dimensions.map fun e => (stringBytes e.1, stringBytes e.2)

/-- The compact JSON texts. -/
def compactText : KeyText where
  identity identity := stringBytes "\x7b\"metric_family\":" ++
    (JsonText.quoted (stringBytes identity.metricFamily) ++ (stringBytes ",\"dimensions\":" ++
      (JsonText.object (entryBytes identity.dimensions) ++ stringBytes "\x7d")))
  dimensions dimensions := JsonText.object (entryBytes dimensions)

theorem entryBytes_injective : Function.Injective entryBytes := by
  apply List.map_injective_iff.mpr
  intro e e' h
  obtain ⟨hname, hvalue⟩ := Prod.mk.inj h
  exact Prod.ext (stringBytes_injective hname) (stringBytes_injective hvalue)

theorem compactText_readsBack : compactText.ReadsBack := by
  have hidentity : Function.Injective compactText.identity := by
    rintro ⟨family, dimensions⟩ ⟨family', dimensions'⟩ h
    obtain ⟨hfamily, hrest⟩ := JsonText.quoted_append_inj (List.append_cancel_left h)
    obtain ⟨hdimensions, -⟩ := JsonText.object_append_inj (List.append_cancel_left hrest)
    exact (MetricIdentity.mk.injEq ..).mpr
      ⟨stringBytes_injective hfamily, entryBytes_injective hdimensions⟩
  have hdimensions : Function.Injective compactText.dimensions := by
    intro dimensions dimensions' h
    apply entryBytes_injective
    have happ : JsonText.object (entryBytes dimensions) ++ [] =
        JsonText.object (entryBytes dimensions') ++ [] := congrArg (· ++ []) h
    exact (JsonText.object_append_inj happ).1
  exact ⟨⟨_, Function.partialInv_left hidentity⟩, ⟨_, Function.partialInv_left hdimensions⟩⟩

instance (a : StoreAction δ) : Decidable a.InRange :=
  match a with
  | .put points => inferInstanceAs (Decidable (∀ point ∈ points, point.bucketStartUnixSecs < 2 ^ 64))
  | .accept report => inferInstanceAs (Decidable (report.payload.bucketStartUnixSecs < 2 ^ 64))

def countedOnce : MetricValue :=
  { emptyMetricValue with
    revision := Saturating.ofNat 1
    count := Saturating.ofNat 1
    sum := Saturating.ofNat 7 }

def samplePoint (bucketStart : ℕ) : MetricPoint :=
  ⟨bucketStart, ⟨"relay_sessions", [("home_id", "home \"1\"")]⟩, countedOnce⟩

def relayReport (reporterId : String) : VerifiedStatisticsReport StatisticsReportPayload :=
  let payload := (⟨"deployment-1", .relay, reporterId, "certificate"⟩ : Reporter).payload
    (samplePoint 300).key countedOnce
  ⟨payload, payload⟩

def twoRelays : List (StoreAction StatisticsReportPayload) :=
  [.put [samplePoint 600, samplePoint 300], .accept (relayReport "relay-1"),
    .accept (relayReport "relay-2")]

/-- Each Relay keeps its report, and a range has the points of its buckets only. -/
theorem exact_of_twoRelays :
    ∃ s, (StatisticsStore.machine compactText id).execWhere (fun _ a => a.InRange) twoRelays =
        some s ∧
      samplePoint 600 ∈ query s.metric5m 600 900 ∧ samplePoint 300 ∉ query s.metric5m 600 900 ∧
      (⟨(relayReport "relay-1").payload, (relayReport "relay-1").payload⟩ :
        AcceptedReport StatisticsReportPayload) ∈ queryAcceptedReports s.acceptedReports 300 600 ∧
      (⟨(relayReport "relay-2").payload, (relayReport "relay-2").payload⟩ :
        AcceptedReport StatisticsReportPayload) ∈ queryAcceptedReports s.acceptedReports 300 600 := by
  have hrun : ((StatisticsStore.machine compactText id).execWhere (fun _ a => a.InRange)
      twoRelays).map (fun s => (s.points.lookup (samplePoint 600).key,
        s.accepted.lookup (.of (relayReport "relay-1").payload),
        s.accepted.lookup (.of (relayReport "relay-2").payload))) =
      some (some (samplePoint 600),
        some ⟨(relayReport "relay-1").payload, (relayReport "relay-1").payload⟩,
        some ⟨(relayReport "relay-2").payload, (relayReport "relay-2").payload⟩) := by
    decide +kernel
  obtain ⟨s, hs, hstate⟩ := Option.map_eq_some_iff.mp hrun
  obtain ⟨hpoint, hstate⟩ := Prod.mk.inj hstate
  obtain ⟨hfirst, hsecond⟩ := Prod.mk.inj hstate
  have hexact := (StatisticsStore.exact_of_readsBack compactText_readsBack).2.2.2.2 s
    (Machine.reachableWhere_of_execWhere hs)
  refine ⟨s, hs, ?_, ?_, ?_, ?_⟩
  · exact (hexact.1.query 600 900 _).mpr ⟨by decide, hpoint⟩
  · intro hmem
    have hrange := ((hexact.1.query 600 900 _).mp hmem).1
    exact absurd hrange (by decide)
  · exact (hexact.2.1.query 300 600 _).mpr ⟨by decide, hfirst⟩
  · exact (hexact.2.1.query 300 600 _).mpr ⟨by decide, hsecond⟩

end FlowSplice.Statistics
