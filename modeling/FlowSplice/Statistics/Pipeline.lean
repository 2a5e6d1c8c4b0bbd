import FlowSplice.Statistics.Delivery

/-! What one flush does with all pending metrics: `flush_and_stage` as one call, the recorders of the
daemons, and the control sessions whose ticks call it. -/
namespace FlowSplice.Statistics

/-- The identities that a node records. A Travel leaves out the mapping of an embedded flow. -/
inductive Recorder where
  | relay (family travelId homeId : String)
  | travel (family homeId serviceId : String) (protocol : ServiceProtocol) (bind : String)
      (relayId result : Option String)
  | home (family travelId serviceId : String) (protocol : ServiceProtocol)
      (relayId : Option String)
  | issuer (family : String) (accepted : Bool)
deriving DecidableEq, Repr

def protocolName : ServiceProtocol → String
  | .tcp => "tcp"
  | .udp => "udp"

def optional (name : String) (value : Option String) : List (String × String) :=
  value.toList.map fun value => (name, value)

def Recorder.identity : Recorder → MetricIdentity
  | .relay family travelId homeId => ⟨family, [("home_id", homeId), ("travel_id", travelId)]⟩
  | .travel family homeId serviceId protocol bind relayId result =>
    ⟨family, [("home_id", homeId)] ++ optional "mapping" (if bind.isEmpty then none else some bind) ++
      [("protocol", protocolName protocol)] ++ optional "relay_id" relayId ++
      optional "result" result ++ [("service_id", serviceId)]⟩
  | .home family travelId serviceId protocol relayId =>
    ⟨family, [("protocol", protocolName protocol)] ++ optional "relay_id" relayId ++
      [("service_id", serviceId), ("travel_id", travelId)]⟩
  | .issuer family accepted =>
    ⟨family, [("result", if accepted then "accepted" else "rejected")]⟩

variable {δ : Type*} (codec : ReportCodec δ) (reporter : Reporter)

/-- The rounds of `build_flush_batch`. -/
def stageAll (metric5m : Table MetricKey MetricPoint) (sign : MetricKey → String) :
    List (Sigma fun _ : MetricKey => MetricDelta) → Option (List Staged)
  | [] => some []
  | e :: rest =>
    match stage codec reporter (metric5m.lookup e.1) e.1 e.2 (sign e.1) with
    | none => none
    | some row => (stageAll metric5m sign rest).map (row :: ·)

/-- The call of a session, with a store that works. -/
def flushAndStage (sign : MetricKey → String) (s : Sys δ) : Option ℕ × Sys δ :=
  if s.accumulator.entries.isEmpty then (some 0, s)
  else
    match stageAll codec reporter s.metric5m sign s.accumulator.entries with
    | some staged =>
      (some (Table.len s.accumulator), { s with
        accumulator := ∅
        metric5m := putPoints s.metric5m staged
        reportOutbox := putReports s.reportOutbox staged })
    | none => (none, { s with accumulator := restoreDeltas ∅ s.accumulator })

/-- A Home only warns of a flush that failed; the sessions of the other nodes end. -/
def tickEndsSession (role : Role) (flushed : Option ℕ) : Bool :=
  match role with
  | .home => false
  | _ => flushed.isNone

/-- The identity has a valid report. -/
def Reportable (identity : MetricIdentity) : Prop :=
  orderedKeyFits [codec.identityJsonBytes identity] = true ∧ identity.metricFamily.isEmpty = false ∧
    identity.metricFamily.utf8ByteSize ≤ maxStatisticsDimensionBytes ∧
    identity.dimensions.length ≤ maxStatisticsDimensions ∧
    ∀ e ∈ identity.dimensions, e.1.isEmpty = false ∧ e.2.isEmpty = false ∧
      e.1.utf8ByteSize ≤ maxStatisticsDimensionBytes ∧
      e.2.utf8ByteSize ≤ maxStatisticsDimensionBytes

/-- What every report of this node says is valid. -/
def Reporter.Valid : Prop :=
  reporter.deploymentId.isEmpty = false ∧ reporter.reporterId.isEmpty = false ∧
    reporter.certificatePem.isEmpty = false ∧ reporter.certificatePem.utf8ByteSize ≤ 64 * 1024

inductive PipelineAction where
  | record (now : ℕ) (identity : MetricIdentity) (sample : Sample)
  | tick (sign : MetricKey → String)

/-- The records of a node, and the statistics ticks of its control sessions. -/
def pipeline : Machine (Sys δ) PipelineAction where
  start := {}
  step s
    | .record now identity sample => some (s.record now identity sample)
    | .tick sign => some (flushAndStage codec reporter sign s).2

/-- The tick commits and stages what can be reported, and the session goes on. -/
structure Survives (sign : MetricKey → String) (s : Sys δ) : Prop where
  flushed : (flushAndStage codec reporter sign s).1.isSome = true
  session : tickEndsSession reporter.role (flushAndStage codec reporter sign s).1 = false
  committed : ∀ key delta, s.accumulator.lookup key = some delta → Reportable codec key.2 →
    let value := nextValue (s.metric5m.lookup key) delta
    (flushAndStage codec reporter sign s).2.metric5m.lookup key = some ⟨key.1, key.2, value⟩ ∧
      ∃ report, (flushAndStage codec reporter sign s).2.reportOutbox.lookup key = some report ∧
        report.payload = reporter.payload key value

variable {codec reporter} {sign : MetricKey → String} {s s' : Sys δ} {key : MetricKey}
  {delta : MetricDelta}

/-- What `validate` asks of the delta of a metric in its bucket. -/
structure Sound (key : MetricKey) (delta : MetricDelta) : Prop where
  bucket : key.1 % fiveMinuteSecs = 0
  count : delta.count.val ≠ 0
  range : delta.min ≤ delta.max

/-- What it asks of the value that the delta is merged with. -/
structure SoundPoint (point : MetricPoint) : Prop where
  version : point.value.version = statisticsMetricVersion
  range : point.value.min ≤ point.value.max

structure Pipeline.Ok (s : Sys δ) : Prop where
  accumulator : ∀ key delta, s.accumulator.lookup key = some delta → Sound key delta
  metric5m : ∀ key point, s.metric5m.lookup key = some point → SoundPoint point

theorem range_nextValue {stored : Option MetricPoint} (hstored : ∀ point ∈ stored, SoundPoint point)
    (hdelta : Sound key delta) :
    (nextValue stored delta).version = statisticsMetricVersion ∧
      (nextValue stored delta).min ≤ (nextValue stored delta).max := by
  have hpos : 0 < delta.count.val := Nat.pos_of_ne_zero hdelta.count
  have hrange := hdelta.range
  cases stored with
  | none => exact ⟨rfl, hrange⟩
  | some point =>
    have hpoint := hstored point rfl
    have hold := hpoint.range
    refine ⟨hpoint.version, ?_⟩
    unfold nextValue mergeDelta
    dsimp only [Option.elim_some]
    split_ifs
    · exact hrange
    · omega

theorem revision_nextValue (stored : Option MetricPoint) (delta : MetricDelta) :
    (nextValue stored delta).revision.val ≠ 0 := by
  show min ((mergeDelta (stored.elim emptyMetricValue (·.value)) delta).revision.val +
    min 1 u64Max) u64Max ≠ 0
  unfold u64Max
  omega

/-- A pending metric can be staged exactly if its identity has a valid report. -/
theorem isSome_stage_iff {stored : Option MetricPoint} {signatureHex : String}
    (hreporter : reporter.Valid) (hstored : ∀ point ∈ stored, SoundPoint point)
    (hdelta : Sound key delta) :
    (stage codec reporter stored key delta signatureHex).isSome = true ↔
      Reportable codec key.2 := by
  obtain ⟨hdeployment, hid, hcertificate, hlength⟩ := hreporter
  have hvalue := range_nextValue hstored hdelta
  have hrevision := revision_nextValue stored delta
  have hcount : (nextValue stored delta).count.val ≠ 0 := count_nextValue hdelta.count
  have hbucket := hdelta.bucket
  have hvalidate : (reporter.payload key (nextValue stored delta)).validate = true ↔
      key.2.metricFamily.isEmpty = false ∧
        key.2.metricFamily.utf8ByteSize ≤ maxStatisticsDimensionBytes ∧
        key.2.dimensions.length ≤ maxStatisticsDimensions ∧
        ∀ e ∈ key.2.dimensions, e.1.isEmpty = false ∧ e.2.isEmpty = false ∧
          e.1.utf8ByteSize ≤ maxStatisticsDimensionBytes ∧
          e.2.utf8ByteSize ≤ maxStatisticsDimensionBytes := by
    unfold StatisticsReportPayload.validate Reporter.payload
    simp [hdeployment, hid, hbucket, hvalue.1, hvalue.2, hrevision, hcount, and_assoc]
  have hcertificate' : decide (64 * 1024 < reporter.certificatePem.utf8ByteSize) = false :=
    decide_eq_false (by omega)
  unfold stage metricKey Reportable
  by_cases hfits : orderedKeyFits [codec.identityJsonBytes key.2] = true
  · rw [if_pos hfits]
    dsimp only
    rw [Option.isSome_map]
    show (SignedStatisticsReport.sign (reporter.payload key (nextValue stored delta)) _ _).isSome =
      true ↔ _
    unfold SignedStatisticsReport.sign
    rw [hcertificate, hcertificate', Bool.or_false, Bool.or_false, ← hvalidate]
    by_cases hvalid : (reporter.payload key (nextValue stored delta)).validate = true
    · simp [hvalid, hfits]
    · simp [hvalid]
  · rw [if_neg hfits]
    simp [hfits]

theorem isSome_stageAll_iff {l : List (Sigma fun _ : MetricKey => MetricDelta)}
    {metric5m : Table MetricKey MetricPoint} :
    (stageAll codec reporter metric5m sign l).isSome = true ↔
      ∀ e ∈ l, (stage codec reporter (metric5m.lookup e.1) e.1 e.2 (sign e.1)).isSome = true := by
  induction l with
  | nil => simp [stageAll]
  | cons e l ih =>
    unfold stageAll
    rw [List.forall_mem_cons, ← ih]
    cases stage codec reporter (metric5m.lookup e.1) e.1 e.2 (sign e.1) with
    | none => simp
    | some row => simp

/-- The rows are those of the deltas, in their order. -/
theorem forall₂_stageAll {l : List (Sigma fun _ : MetricKey => MetricDelta)}
    {metric5m : Table MetricKey MetricPoint} {staged : List Staged}
    (h : stageAll codec reporter metric5m sign l = some staged) :
    List.Forall₂ (fun e row => stage codec reporter (metric5m.lookup e.1) e.1 e.2 (sign e.1) =
      some row) l staged := by
  induction l generalizing staged with
  | nil =>
    cases h
    exact .nil
  | cons e l ih =>
    unfold stageAll at h
    cases hrow : stage codec reporter (metric5m.lookup e.1) e.1 e.2 (sign e.1) with
    | none =>
      rw [hrow] at h
      cases h
    | some row =>
      rw [hrow] at h
      obtain ⟨rest, hrest, rfl⟩ := Option.map_eq_some_iff.mp h
      exact .cons hrow (ih hrest)

theorem isSome_flushAndStage_iff (hreporter : reporter.Valid) (hs : Pipeline.Ok s) :
    (flushAndStage codec reporter sign s).1.isSome = true ↔
      ∀ key delta, s.accumulator.lookup key = some delta → Reportable codec key.2 := by
  have hstage : ∀ key delta, s.accumulator.lookup key = some delta →
      ((stage codec reporter (s.metric5m.lookup key) key delta (sign key)).isSome = true ↔
        Reportable codec key.2) := fun key delta hlookup =>
    isSome_stage_iff hreporter (fun point hpoint => hs.metric5m key point hpoint)
      (hs.accumulator key delta hlookup)
  have hall : (stageAll codec reporter s.metric5m sign s.accumulator.entries).isSome = true ↔
      ∀ key delta, s.accumulator.lookup key = some delta → Reportable codec key.2 := by
    rw [isSome_stageAll_iff]
    constructor
    · intro h key delta hlookup
      exact (hstage key delta hlookup).mp (h ⟨key, delta⟩ (Table.lookup_eq_some.mp hlookup))
    · intro h e he
      have hlookup := Table.lookup_eq_some.mpr he
      exact (hstage e.1 e.2 hlookup).mpr (h e.1 e.2 hlookup)
  rw [← hall]
  unfold flushAndStage
  split_ifs with hempty
  · rw [List.isEmpty_iff.mp hempty]
    simp [stageAll]
  · cases stageAll codec reporter s.metric5m sign s.accumulator.entries with
    | none => simp
    | some staged => simp

/-- A flush that succeeds commits and stages all pending metrics. -/
theorem flushAndStage_committed {n : ℕ} (h : (flushAndStage codec reporter sign s).1 = some n)
    (hlookup : s.accumulator.lookup key = some delta) :
    let value := nextValue (s.metric5m.lookup key) delta
    (flushAndStage codec reporter sign s).2.metric5m.lookup key = some ⟨key.1, key.2, value⟩ ∧
      ∃ report, (flushAndStage codec reporter sign s).2.reportOutbox.lookup key = some report ∧
        report.payload = reporter.payload key value := by
  have hmem := Table.lookup_eq_some.mp hlookup
  unfold flushAndStage at h ⊢
  split_ifs at h ⊢ with hempty
  · rw [List.isEmpty_iff.mp hempty] at hmem
    cases hmem
  · cases hstaged : stageAll codec reporter s.metric5m sign s.accumulator.entries with
    | none =>
      rw [hstaged] at h
      cases h
    | some staged =>
      have hrows := forall₂_stageAll hstaged
      have hkeys : staged.map (·.key) = s.accumulator.keys := by
        have hrows' : List.Forall₂ (StagedAs codec reporter) s.accumulator.entries staged :=
          hrows.imp fun e row hrow => ⟨sign e.1, by rw [(stage_ok hrow).2.1]; exact hrow⟩
        exact map_key_of_stagedAs hrows'
      have hnodup : (staged.map (·.key)).Nodup := by
        rw [hkeys]
        exact s.accumulator.nodupKeys
      obtain ⟨i, hi, hentry⟩ := List.mem_iff_getElem.mp hmem
      have hi' : i < staged.length := by
        rw [← hrows.length_eq]
        exact hi
      have hrow := hrows.get hi hi'
      rw [List.get_eq_getElem, List.get_eq_getElem, hentry] at hrow
      have hok := stage_ok hrow
      have hrowmem : staged[i] ∈ staged := List.getElem_mem hi'
      refine ⟨?_, staged[i].report, ?_, hok.2.2.2.1⟩
      · rw [← hok.2.2.1]
        apply Table.lookup_insertAll_of_mem
        · rw [List.map_map]
          exact hnodup
        · exact List.mem_map.mpr ⟨staged[i], hrowmem, by rw [hok.1]⟩
      · apply Table.lookup_insertAll_of_mem
        · rw [List.map_map]
          exact hnodup
        · exact List.mem_map.mpr ⟨staged[i], hrowmem, by rw [hok.1]⟩

theorem sound_record {now : ℕ} {identity : MetricIdentity} {sample : Sample} (delta : MetricDelta) :
    Sound (fiveMinuteBucketStart now, identity)
      (delta.record sample.value sample.histogramSample) := by
  have hone : ∀ value, (delta.countOne value).min ≤ (delta.countOne value).max := by
    intro value
    unfold MetricDelta.countOne
    dsimp only
    split_ifs
    · exact le_rfl
    · omega
  have hbucket : fiveMinuteBucketStart now % fiveMinuteSecs = 0 := by
    unfold fiveMinuteBucketStart fiveMinuteSecs
    omega
  obtain ⟨value, histogramSample⟩ := sample
  cases histogramSample with
  | none => exact ⟨hbucket, count_countOne delta value, hone value⟩
  | some sample => exact ⟨hbucket, count_countOne delta value, hone value⟩

theorem Sound.merge (h : Sound key delta) (target : MetricDelta) :
    Sound key (mergePendingDelta target delta) where
  bucket := h.bucket
  count := count_mergePendingDelta h.count
  range := by
    have hpos : 0 < delta.count.val := Nat.pos_of_ne_zero h.count
    have hrange := h.range
    unfold mergePendingDelta
    dsimp only
    split_ifs
    · exact hrange
    · omega

/-- A restored delta was there or is one of those restored, merged with what was there. -/
theorem lookup_restoreDeltas {accumulator deltas : Accumulator} {P : MetricKey → MetricDelta → Prop}
    (haccumulator : ∀ key delta, accumulator.lookup key = some delta → P key delta)
    (hdeltas : ∀ key delta, deltas.lookup key = some delta →
      ∀ target, P key (mergePendingDelta target delta)) :
    ∀ key delta, (restoreDeltas accumulator deltas).lookup key = some delta → P key delta := by
  have hentries : ∀ e ∈ deltas.entries, ∀ target, P e.1 (mergePendingDelta target e.2) :=
    fun e he => hdeltas e.1 e.2 (Table.lookup_eq_some.mpr he)
  unfold restoreDeltas
  generalize deltas.entries = l at hentries
  induction l generalizing accumulator with
  | nil => exact haccumulator
  | cons e l ih =>
    refine ih ?_ fun e' he' => hentries e' (List.mem_cons_of_mem e he')
    intro key delta hlookup
    rcases Table.lookup_insert_cases hlookup with ⟨rfl, rfl⟩ | ⟨-, hold⟩
    · exact hentries e List.mem_cons_self _
    · exact haccumulator key delta hold

/-- Nothing that is restored gets lost. -/
theorem isSome_restoreDeltas {accumulator deltas : Accumulator}
    (h : (accumulator.lookup key).isSome = true ∨ (deltas.lookup key).isSome = true) :
    ((restoreDeltas accumulator deltas).lookup key).isSome = true := by
  have hentries : (deltas.lookup key).isSome = true → key ∈ deltas.entries.map Sigma.fst :=
    fun hsome => AList.lookup_isSome.mp hsome
  replace h := h.imp_right hentries
  clear hentries
  unfold restoreDeltas
  generalize deltas.entries = l at h
  induction l generalizing accumulator with
  | nil => exact h.resolve_right List.not_mem_nil
  | cons e l ih =>
    apply ih
    by_cases hkey : key = e.1
    · left
      subst hkey
      show (AList.lookup e.1 (AList.insert e.1 _ accumulator)).isSome = true
      rw [AList.lookup_insert]
      rfl
    · rcases h with hthere | hlisted
      · left
        show (AList.lookup key (AList.insert e.1 _ accumulator)).isSome = true
        rw [AList.lookup_insert_ne hkey]
        exact hthere
      · exact .inr ((List.mem_cons.mp hlisted).resolve_left hkey)

theorem Pipeline.Ok.record {now : ℕ} {identity : MetricIdentity} {sample : Sample}
    (h : Pipeline.Ok s) : Pipeline.Ok (s.record now identity sample) where
  accumulator key delta hlookup := by
    rcases Table.lookup_insert_cases hlookup with ⟨rfl, rfl⟩ | ⟨-, hold⟩
    · exact sound_record _
    · exact h.accumulator key delta hold
  metric5m := h.metric5m

/-- A flush that fails gives the deltas back, and one that succeeds keeps none. -/
theorem flushAndStage_cases (sign : MetricKey → String) (s : Sys δ) :
    (∃ n, (flushAndStage codec reporter sign s).1 = some n ∧
      (flushAndStage codec reporter sign s).2.accumulator.entries = []) ∨
    (flushAndStage codec reporter sign s).1 = none ∧
      (flushAndStage codec reporter sign s).2 =
        { s with accumulator := restoreDeltas ∅ s.accumulator } := by
  unfold flushAndStage
  split_ifs with hempty
  · exact .inl ⟨0, rfl, List.isEmpty_iff.mp hempty⟩
  · cases stageAll codec reporter s.metric5m sign s.accumulator.entries with
    | none => exact .inr ⟨rfl, rfl⟩
    | some staged => exact .inl ⟨_, rfl, rfl⟩

/-- Metrics that are not pending keep their rows. -/
theorem metric5m_flushAndStage (h : s.accumulator.lookup key = none) :
    (flushAndStage codec reporter sign s).2.metric5m.lookup key = s.metric5m.lookup key := by
  unfold flushAndStage
  split_ifs
  · rfl
  · cases hstaged : stageAll codec reporter s.metric5m sign s.accumulator.entries with
    | none => rfl
    | some staged =>
      have hrows : List.Forall₂ (StagedAs codec reporter) s.accumulator.entries staged :=
        (forall₂_stageAll hstaged).imp fun e row hrow =>
          ⟨sign e.1, by rw [(stage_ok hrow).2.1]; exact hrow⟩
      apply Table.lookup_insertAll_of_notMem
      rw [List.map_map]
      show key ∉ staged.map (·.key)
      rw [map_key_of_stagedAs hrows]
      exact AList.lookup_eq_none.mp h

theorem Pipeline.Ok.tick (h : Pipeline.Ok s) (sign : MetricKey → String) :
    Pipeline.Ok (flushAndStage codec reporter sign s).2 := by
  rcases flushAndStage_cases sign s with ⟨n, hsome, hempty⟩ | ⟨-, hnone⟩
  · constructor
    · intro key delta hlookup
      have hmem := Table.lookup_eq_some.mp hlookup
      rw [hempty] at hmem
      cases hmem
    · intro key point hlookup
      cases hpending : s.accumulator.lookup key with
      | none =>
        rw [metric5m_flushAndStage hpending] at hlookup
        exact h.metric5m key point hlookup
      | some delta =>
        rw [(flushAndStage_committed hsome hpending).1] at hlookup
        cases hlookup
        have hvalue := range_nextValue (fun point hpoint => h.metric5m key point hpoint)
          (h.accumulator key delta hpending)
        exact ⟨hvalue.1, hvalue.2⟩
  · rw [hnone]
    refine ⟨?_, h.metric5m⟩
    apply lookup_restoreDeltas
    · intro key delta hlookup
      cases hlookup
    · intro key delta hlookup target
      exact (h.accumulator key delta hlookup).merge target

theorem ok_of_reachable (h : (pipeline codec reporter).Reachable s) : Pipeline.Ok s := by
  apply h.invariant
  · constructor
    · intro key delta hlookup
      cases hlookup
    · intro key point hlookup
      cases hlookup
  · intro s a s' hok hstep
    cases a with
    | record now identity sample =>
      cases hstep
      exact hok.record
    | tick sign =>
      cases hstep
      exact hok.tick sign

/-- A metric without a valid report stays pending, and while it does no flush writes anything. -/
theorem poisoned (hreporter : reporter.Valid) (hs : (pipeline codec reporter).Reachable s)
    (hpending : (s.accumulator.lookup key).isSome = true) (hkey : ¬ Reportable codec key.2)
    {a : PipelineAction} (hstep : (pipeline codec reporter).step s a = some s') :
    (s'.accumulator.lookup key).isSome = true ∧ s'.metric5m = s.metric5m ∧
      s'.reportOutbox = s.reportOutbox := by
  cases a with
  | record now identity sample =>
    cases hstep
    refine ⟨?_, rfl, rfl⟩
    show (AList.lookup key (AList.insert _ _ s.accumulator)).isSome = true
    by_cases hsame : key = (fiveMinuteBucketStart now, identity)
    · subst hsame
      rw [AList.lookup_insert]
      rfl
    · rw [AList.lookup_insert_ne hsame]
      exact hpending
  | tick sign =>
    cases hstep
    obtain ⟨delta, hdelta⟩ := Option.isSome_iff_exists.mp hpending
    have hfails : (flushAndStage codec reporter sign s).1.isSome ≠ true := fun hflushed =>
      hkey ((isSome_flushAndStage_iff hreporter (ok_of_reachable hs)).mp hflushed key delta hdelta)
    rcases flushAndStage_cases sign s with ⟨n, hsome, -⟩ | ⟨-, hnone⟩
    · rw [hsome] at hfails
      exact absurd rfl hfails
    · rw [hnone]
      exact ⟨isSome_restoreDeltas (.inr hpending), rfl, rfl⟩

/-- A record of a metric that has a valid report. -/
def PipelineAction.Reports (codec : ReportCodec δ) : PipelineAction → Prop
  | .record _ identity _ => Reportable codec identity
  | .tick _ => True

theorem reportable_of_reachableWhere
    (h : (pipeline codec reporter).ReachableWhere (fun _ a => a.Reports codec) s) :
    ∀ key delta, s.accumulator.lookup key = some delta → Reportable codec key.2 := by
  apply h.invariant
  · intro key delta hlookup
    cases hlookup
  · intro s a s' _ hpending hreports hstep key delta hlookup
    cases a with
    | record now identity sample =>
      cases hstep
      rcases Table.lookup_insert_cases hlookup with ⟨rfl, -⟩ | ⟨-, hold⟩
      · exact hreports
      · exact hpending key delta hold
    | tick sign =>
      cases hstep
      rcases flushAndStage_cases sign s with ⟨n, -, hempty⟩ | ⟨-, hnone⟩
      · have hmem := Table.lookup_eq_some.mp hlookup
        rw [hempty] at hmem
        cases hmem
      · rw [hnone] at hlookup
        have hrestored : ∀ key delta, (restoreDeltas ∅ s.accumulator).lookup key = some delta →
            Reportable codec key.2 := by
          apply lookup_restoreDeltas
          · intro key delta hlookup
            cases hlookup
          · intro key delta hlookup _
            exact hpending key delta hlookup
        exact hrestored key delta hlookup

/-- A tick gets through exactly if each pending metric has a valid report. So where only such
metrics are recorded, all ticks do. -/
theorem survives_iff (hreporter : reporter.Valid) :
    (∀ s, (pipeline codec reporter).Reachable s → ∀ sign,
      (Survives codec reporter sign s ↔
        ∀ key delta, s.accumulator.lookup key = some delta → Reportable codec key.2)) ∧
    ∀ s, (pipeline codec reporter).ReachableWhere (fun _ a => a.Reports codec) s → ∀ sign,
      Survives codec reporter sign s := by
  have hiff : ∀ s, (pipeline codec reporter).Reachable s → ∀ sign,
      (Survives codec reporter sign s ↔
        ∀ key delta, s.accumulator.lookup key = some delta → Reportable codec key.2) := by
    intro s hs sign
    have hflush : (flushAndStage codec reporter sign s).1.isSome = true ↔ _ :=
      isSome_flushAndStage_iff hreporter (ok_of_reachable hs)
    constructor
    · intro h
      exact hflush.mp h.flushed
    · intro h
      obtain ⟨n, hn⟩ := Option.isSome_iff_exists.mp (hflush.mpr h)
      refine ⟨hflush.mpr h, ?_, fun key delta hlookup _ => flushAndStage_committed hn hlookup⟩
      rw [hn]
      cases reporter.role <;> rfl
  refine ⟨hiff, fun s hs sign => ?_⟩
  exact (hiff s hs.reachable sign).mpr (reportable_of_reachableWhere hs)

/-- A route to the Home that a Relay has denied. -/
def sampleDenied (homeId : String) : MetricIdentity :=
  (Recorder.relay "relay_route_denied" "laptop" homeId).identity

/-- Two metrics of a Relay are reported. -/
theorem survives_sample :
    ∃ s : Sys _, s = (({} : Sys _).record 301 sampleIdentity ⟨42, some 7⟩).record 302
        (sampleDenied "home-1") ⟨1, none⟩ ∧
      s.accumulator.len = 2 ∧ Survives sampleCodec sampleReporter (fun key => toString key.1) s := by
  have hreporter : sampleReporter.Valid := by
    unfold Reporter.Valid
    decide
  have hreports : Reportable sampleCodec sampleIdentity := by
    unfold Reportable
    decide
  have hdenied : Reportable sampleCodec (sampleDenied "home-1") := by
    unfold Reportable
    decide
  have hfirst : (pipeline sampleCodec sampleReporter).ReachableWhere
      (fun _ a => a.Reports sampleCodec) (({} : Sys _).record 301 sampleIdentity ⟨42, some 7⟩) :=
    Machine.ReachableWhere.tail .refl
      (show PipelineAction.Reports sampleCodec (.record 301 sampleIdentity ⟨42, some 7⟩) from hreports)
      rfl
  have hreach : (pipeline sampleCodec sampleReporter).ReachableWhere
      (fun _ a => a.Reports sampleCodec)
      ((({} : Sys _).record 301 sampleIdentity ⟨42, some 7⟩).record 302 (sampleDenied "home-1")
        ⟨1, none⟩) :=
    hfirst.tail (show PipelineAction.Reports sampleCodec
      (.record 302 (sampleDenied "home-1") ⟨1, none⟩) from hdenied) rfl
  exact ⟨_, rfl, rfl, (survives_iff hreporter).2 _ hreach _⟩

/-- A Travel with a credential for all Homes asks a Relay for a route to the Home without a name and
is denied: from then on the Relay reports nothing, and each tick ends its session with the Server. -/
theorem not_survives_emptyHome :
    ¬ ∀ s, (pipeline sampleCodec sampleReporter).Reachable s →
      ∀ sign, Survives sampleCodec sampleReporter sign s := by
  intro h
  have hreach : (pipeline sampleCodec sampleReporter).Reachable
      ((({} : Sys _).record 301 (sampleDenied "") ⟨1, none⟩).record 302 sampleIdentity ⟨42, none⟩) := by
    have hrun : (pipeline sampleCodec sampleReporter).exec
        [.record 301 (sampleDenied "") ⟨1, none⟩, .record 302 sampleIdentity ⟨42, none⟩] =
          some _ := rfl
    exact Machine.reachable_of_exec hrun
  have hflushed := (h _ hreach fun _ => "01").flushed
  revert hflushed
  decide

/-- The ids in the dimensions of a recorder. -/
def Recorder.ids : Recorder → List String
  | .relay _ travelId homeId => [homeId, travelId]
  | .travel _ homeId serviceId _ bind relayId result =>
    [homeId, serviceId] ++ (if bind.isEmpty then [] else [bind]) ++ relayId.toList ++ result.toList
  | .home _ travelId serviceId _ relayId => relayId.toList ++ [serviceId, travelId]
  | .issuer _ _ => []

/-- The names in the dimensions, and the values that are no ids. -/
def dimensionWords : List String :=
  ["home_id", "travel_id", "service_id", "protocol", "relay_id", "result", "mapping", "tcp", "udp",
    "accepted", "rejected"]

theorem fits_of_mem_dimensionWords {word : String} (h : word ∈ dimensionWords) :
    word.isEmpty = false ∧ word.utf8ByteSize ≤ maxStatisticsDimensionBytes := by
  revert word
  decide

/-- Every dimension is a word with an id or with a word, and every id is in one of them. -/
theorem Recorder.dimensions_cases (r : Recorder) :
    (∀ e ∈ r.identity.dimensions, e.1 ∈ dimensionWords ∧ (e.2 ∈ r.ids ∨ e.2 ∈ dimensionWords)) ∧
      (∀ id ∈ r.ids, ∃ e ∈ r.identity.dimensions, e.2 = id) ∧
      r.identity.dimensions.length ≤ maxStatisticsDimensions := by
  cases r with
  | relay family travelId homeId =>
    simp [Recorder.identity, Recorder.ids, dimensionWords, maxStatisticsDimensions]
  | travel family homeId serviceId protocol bind relayId result =>
    cases protocol <;> by_cases hbind : bind.isEmpty <;> cases relayId <;> cases result <;>
      simp [Recorder.identity, Recorder.ids, dimensionWords, maxStatisticsDimensions, optional,
        protocolName, hbind]
  | home family travelId serviceId protocol relayId =>
    cases protocol <;> cases relayId <;>
      simp [Recorder.identity, Recorder.ids, dimensionWords, maxStatisticsDimensions, optional,
        protocolName]
  | issuer family accepted =>
    cases accepted <;>
      simp [Recorder.identity, Recorder.ids, dimensionWords, maxStatisticsDimensions]

/-- What a node records has a valid report exactly if no id in it is empty or longer than 96 bytes.
-/
theorem reportable_recorder {r : Recorder}
    (hjson : orderedKeyFits [codec.identityJsonBytes r.identity] = true)
    (hfamily : r.identity.metricFamily.isEmpty = false ∧
      r.identity.metricFamily.utf8ByteSize ≤ maxStatisticsDimensionBytes) :
    Reportable codec r.identity ↔
      ∀ id ∈ r.ids, id.isEmpty = false ∧ id.utf8ByteSize ≤ maxStatisticsDimensionBytes := by
  have hdimensions := r.dimensions_cases
  constructor
  · intro h id hid
    obtain ⟨e, he, rfl⟩ := hdimensions.2.1 id hid
    have hvalid := h.2.2.2.2 e he
    exact ⟨hvalid.2.1, hvalid.2.2.2⟩
  · intro h
    refine ⟨hjson, hfamily.1, hfamily.2, hdimensions.2.2, fun e he => ?_⟩
    have hname := fits_of_mem_dimensionWords (hdimensions.1 e he).1
    have hvalue : e.2.isEmpty = false ∧ e.2.utf8ByteSize ≤ maxStatisticsDimensionBytes := by
      rcases (hdimensions.1 e he).2 with hid | hword
      · exact h e.2 hid
      · exact fits_of_mem_dimensionWords hword
    exact ⟨hname.1, hvalue.1, hname.2, hvalue.2⟩

section Steps
variable [DecidableEq δ]

/-- The rounds of a call are so many steps of the machine, up to the first that fails. -/
theorem stage_steps {i : ℕ} {deltas : Accumulator} {metric5m : Table MetricKey MetricPoint}
    {l : List (Sigma fun _ : MetricKey => MetricDelta)} {staged : List Staged}
    (hcall : s.flushes.get i = some ⟨deltas, l, staged⟩) (hmetric5m : s.metric5m = metric5m) :
    ∃ (as : List (Action δ)) (t : Sys δ) (rest : _) (done : List Staged),
      as.foldlM (Sys.step codec reporter) s = some t ∧
      t = { s with flushes := t.flushes } ∧
      t.flushes.get i = some ⟨deltas, rest, staged ++ done⟩ ∧
      ∀ rows, stageAll codec reporter metric5m sign l = some rows → rest = [] ∧ done = rows := by
  induction l generalizing s staged with
  | nil =>
    refine ⟨[], s, [], [], rfl, rfl, ?_, fun rows hrows => ⟨rfl, Option.some.inj hrows⟩⟩
    rw [List.append_nil]
    exact hcall
  | cons e l ih =>
    unfold stageAll
    cases hrow : stage codec reporter (metric5m.lookup e.1) e.1 e.2 (sign e.1) with
    | none =>
      refine ⟨[], s, e :: l, [], rfl, rfl, ?_, fun rows hrows => by cases hrows⟩
      rw [List.append_nil]
      exact hcall
    | some row =>
      let next : Sys δ :=
        { s with flushes := s.flushes.set i (some ⟨deltas, l, staged ++ [row]⟩) }
      have hstep : Sys.step codec reporter s (.stage i (sign e.1)) = some next := by
        show s.stage codec reporter i (sign e.1) = some next
        subst hmetric5m
        unfold Sys.stage
        rw [hcall]
        dsimp only
        rw [hrow]
        rfl
      have hnext : next.flushes.get i = some ⟨deltas, l, staged ++ [row]⟩ :=
        Slots.get_set_self hcall
      obtain ⟨as, t, rest, done, hrun, ht, hget, hdone⟩ := ih hnext hmetric5m
      refine ⟨.stage i (sign e.1) :: as, t, rest, row :: done, ?_, ht, ?_, ?_⟩
      · rw [List.foldlM_cons, hstep]
        exact hrun
      · rw [hget, List.append_assoc]
        rfl
      · intro rows hrows
        obtain ⟨rows', hrows', rfl⟩ := Option.map_eq_some_iff.mp hrows
        obtain ⟨hrest, hdone⟩ := hdone rows' hrows'
        exact ⟨hrest, by rw [hdone]⟩

/-- The call is what the machine does in some of its steps. -/
theorem flushAndStage_steps (sign : MetricKey → String) (s : Sys δ) :
    ∃ (as : List (Action δ)) (flushes : Slots Flush), as.foldlM (Sys.step codec reporter) s =
      some { (flushAndStage codec reporter sign s).2 with flushes := flushes } := by
  unfold flushAndStage
  split_ifs with hempty
  · exact ⟨[], s.flushes, rfl⟩
  · let call : Flush := { deltas := s.accumulator, rest := s.accumulator.entries }
    let begun : Sys δ := { s with accumulator := ∅, flushes := s.flushes.push call }
    have hflush : Sys.step codec reporter s .flush = some begun := by
      show some s.flush = some begun
      unfold Sys.flush
      rw [if_neg hempty]
    have hcall : begun.flushes.get s.flushes.next =
        some ⟨s.accumulator, s.accumulator.entries, []⟩ := by
      show (s.flushes.push call).get s.flushes.next = some call
      rw [Slots.get_push, if_pos rfl]
    obtain ⟨as, t, rest, done, hrun, ht, hget, hdone⟩ := stage_steps hcall rfl
    cases hstaged : stageAll codec reporter s.metric5m sign s.accumulator.entries with
    | none =>
      have hfail : Sys.step codec reporter t (.failFlush s.flushes.next) = some { t with
          flushes := t.flushes.set s.flushes.next none
          accumulator := restoreDeltas t.accumulator s.accumulator } := by
        show t.failFlush s.flushes.next = _
        unfold Sys.failFlush
        rw [hget]
        rfl
      refine ⟨.flush :: as ++ [.failFlush s.flushes.next],
        t.flushes.set s.flushes.next none, ?_⟩
      rw [List.cons_append, List.foldlM_cons, hflush]
      show (as ++ _).foldlM (Sys.step codec reporter) begun = _
      rw [List.foldlM_append, hrun]
      show (Sys.step codec reporter t _ >>= pure) = _
      rw [hfail, ht]
      rfl
    | some rows =>
      obtain ⟨rfl, rfl⟩ := hdone rows hstaged
      have hcommit : Sys.step codec reporter t (.commit s.flushes.next) = some { t with
          flushes := t.flushes.set s.flushes.next none
          metric5m := putPoints t.metric5m done
          reportOutbox := putReports t.reportOutbox done } := by
        show t.commit s.flushes.next = _
        unfold Sys.commit
        rw [hget]
        rfl
      refine ⟨.flush :: as ++ [.commit s.flushes.next], t.flushes.set s.flushes.next none, ?_⟩
      rw [List.cons_append, List.foldlM_cons, hflush]
      show (as ++ _).foldlM (Sys.step codec reporter) begun = _
      rw [List.foldlM_append, hrun]
      show (Sys.step codec reporter t _ >>= pure) = _
      rw [hcommit, ht]
      rfl

end Steps

end FlowSplice.Statistics
