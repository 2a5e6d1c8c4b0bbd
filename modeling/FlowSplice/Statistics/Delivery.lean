import FlowSplice.Statistics.Conservation

/-! The Server's values follow the metric table: a report stays in the outbox until the Server has
accepted it, as long as no delete of an acknowledged report takes a newer one with it. -/
namespace FlowSplice.Statistics

variable {δ : Type*} {codec : ReportCodec δ} {reporter : Reporter}

/-- Where the Server keeps the reports of this reporter on a metric. -/
def Reporter.acceptedKey (reporter : Reporter) (k : MetricKey) : AcceptedReportKey where
  deploymentId := reporter.deploymentId
  reporterRole := reporter.role
  reporterId := reporter.reporterId
  metricFamily := k.2.metricFamily
  dimensions := k.2.dimensions
  bucketStartUnixSecs := k.1

theorem Reporter.acceptedKey_inj {k k' : MetricKey}
    (h : reporter.acceptedKey k = reporter.acceptedKey k') : k = k' := by
  obtain ⟨bucketStart, metricFamily, dimensions⟩ := k
  obtain ⟨bucketStart', metricFamily', dimensions'⟩ := k'
  unfold Reporter.acceptedKey at h
  injection h with _ _ _ hfamily hdimensions hbucket
  dsimp only at hfamily hdimensions hbucket
  rw [hfamily, hdimensions, hbucket]

/-- What the Server accepts leaves the table as it is, because it has as much already, or replaces an
older report. -/
theorem acceptStatisticsReport_ok [DecidableEq δ]
    {table : Table AcceptedReportKey (AcceptedReport δ)} {report : VerifiedStatisticsReport δ}
    {accepted : ReportAcceptance × Table AcceptedReportKey (AcceptedReport δ)}
    (h : acceptStatisticsReport codec table report = some accepted) :
    (accepted.2 = table ∧ ∃ existing, table.lookup (.of report.payload) = some existing ∧
        report.payload.value.revision.val ≤ existing.payload.value.revision.val) ∨
      accepted.2 = table.insert (.of report.payload) ⟨report.digestSha256, report.payload⟩ ∧
        ∀ existing, table.lookup (.of report.payload) = some existing →
          existing.payload.value.revision.val < report.payload.value.revision.val := by
  unfold acceptStatisticsReport acceptedReportKey at h
  by_cases hfits : orderedKeyFits [report.payload.deploymentId.utf8ByteSize,
      report.payload.reporterId.utf8ByteSize, report.payload.metricFamily.utf8ByteSize,
      codec.dimensionsJsonBytes report.payload.dimensions] = true
  · rw [if_pos hfits] at h
    dsimp only at h
    cases hlookup : table.lookup (AcceptedReportKey.of report.payload) with
    | none =>
      rw [hlookup] at h
      rw [← Option.some.inj h]
      refine .inr ⟨rfl, ?_⟩
      intro existing hexisting
      cases hexisting
    | some existing =>
      rw [hlookup] at h
      dsimp only at h
      split_ifs at h with holder hsame hdigest
      · rw [← Option.some.inj h]
        exact .inl ⟨rfl, existing, rfl, Nat.le_of_lt holder⟩
      · rw [← Option.some.inj h]
        exact .inl ⟨rfl, existing, rfl, by rw [hsame]⟩
      · rw [← Option.some.inj h]
        refine .inr ⟨rfl, ?_⟩
        intro existing' hexisting
        rw [← Option.some.inj hexisting]
        have hne : existing.payload.value.revision.val ≠ report.payload.value.revision.val :=
          fun heq => hsame (Saturating.ext heq)
        omega
  · rw [if_neg hfits] at h
    cases h

namespace Sys
variable {s s' : Sys δ} {k : MetricKey}

/-- The node's own value of a metric. -/
def metricValue (s : Sys δ) (k : MetricKey) : Option MetricValue :=
  (s.metric5m.lookup k).map (·.value)

/-- The value that the Server has accepted from this reporter. -/
def acceptedValue (reporter : Reporter) (s : Sys δ) (k : MetricKey) : Option MetricValue :=
  (s.acceptedReports.lookup (reporter.acceptedKey k)).map (·.payload.value)

/-- The Server has accepted this revision or a later one. -/
def Taken (reporter : Reporter) (s : Sys δ) (k : MetricKey) (revision : U64) : Prop :=
  ∃ value ∈ s.acceptedValue reporter k, revision.val ≤ value.revision.val

instance (k : MetricKey) (revision : U64) : Decidable (s.Taken reporter k revision) :=
  inferInstanceAs (Decidable (∃ value ∈ s.acceptedValue reporter k, _))

/-- A commit finds the metrics as it read them, and a delete finds the report that was read, or one
that the Server has accepted. -/
def Undisturbed (reporter : Reporter) (s : Sys δ) : Action δ → Prop
  | .commit i => ∀ call ∈ s.flushes.get i, ∀ row ∈ call.staged, s.Unchanged row
  | .delete i => ∀ call ∈ s.acknowledgements.get i, ∀ report ∈ s.reportOutbox.lookup call.1,
      report = call.2 ∨ s.Taken reporter call.1 report.payload.value.revision
  | _ => True

instance (a : Action δ) : Decidable (s.Undisturbed reporter a) :=
  match a with
  | .commit i => inferInstanceAs (Decidable (∀ call ∈ s.flushes.get i, _))
  | .delete i => inferInstanceAs (Decidable (∀ call ∈ s.acknowledgements.get i, _))
  | .record .. | .newBatch .. | .batchRecord .. | .batchFlush .. | .batchDrop .. | .flush
  | .stage .. | .failFlush .. | .upload .. | .deliver .. | .deliverOther .. | .acknowledge ..
  | .failDelete .. => inferInstanceAs (Decidable True)

/-- The payload reports the metric's value, or an earlier one. -/
def Made (reporter : Reporter) (s : Sys δ) (k : MetricKey) (payload : StatisticsReportPayload) :
    Prop :=
  ∃ current ∈ s.metricValue k, ∃ value, payload = reporter.payload k value ∧
    value.revision.val ≤ current.revision.val ∧ (value.revision = current.revision → value = current)

/-- Every report that is about was made here; the last one of a metric is in the outbox or has been
accepted, and what is acknowledged has been accepted. -/
structure Delivered (codec : ReportCodec δ) (reporter : Reporter) (s : Sys δ) : Prop where
  outbox : ∀ k report, s.reportOutbox.lookup k = some report →
    ∃ current ∈ s.metricValue k, report.payload = reporter.payload k current
  latest : ∀ k current, s.metricValue k = some current →
    (s.reportOutbox.lookup k).isSome = true ∨ s.acceptedValue reporter k = some current
  uploads : ∀ k report, (k, report) ∈ s.uploads → s.Made reporter k report.payload
  accepted : ∀ k accepted, s.acceptedReports.lookup (reporter.acceptedKey k) = some accepted →
    s.Made reporter k accepted.payload
  acks : ∀ k digestSha256, (k, digestSha256) ∈ s.acks → ∃ payload,
    codec.sha256 payload = digestSha256 ∧ s.Taken reporter k payload.value.revision
  acknowledgements : ∀ i k report, s.acknowledgements.get i = some (k, report) →
    s.Taken reporter k report.payload.value.revision

theorem delivered_start : ({} : Sys δ).Delivered codec reporter := by
  constructor
  · intro k report h
    cases h
  · intro k current h
    cases h
  · intro k report h
    cases h
  · intro k accepted h
    cases h
  · intro k digestSha256 h
    cases h
  · intro i k report h
    cases h

/-- Where nothing is left in the outbox, the Server's values are the node's own. -/
theorem Delivered.acceptedValue_eq (h : s.Delivered codec reporter)
    (houtbox : s.reportOutbox.lookup k = none) : s.acceptedValue reporter k = s.metricValue k := by
  cases hcurrent : s.metricValue k with
  | some current =>
    have hlatest := h.latest k current hcurrent
    rw [houtbox] at hlatest
    exact hlatest.resolve_left (by simp)
  | none =>
    unfold acceptedValue
    cases hlookup : s.acceptedReports.lookup (reporter.acceptedKey k) with
    | none => rfl
    | some accepted =>
      obtain ⟨current, hmem, -⟩ := h.accepted k accepted hlookup
      rw [hcurrent] at hmem
      cases hmem

/-- Steps that touch no table keep what was delivered. -/
theorem Delivered.of_tables (h : s.Delivered codec reporter) (hmetric5m : s'.metric5m = s.metric5m)
    (hreportOutbox : s'.reportOutbox = s.reportOutbox) (huploads : s'.uploads = s.uploads)
    (hacceptedReports : s'.acceptedReports = s.acceptedReports) (hacks : s'.acks = s.acks)
    (hacknowledgements : s'.acknowledgements = s.acknowledgements) :
    s'.Delivered codec reporter := by
  obtain ⟨accumulator, batches, flushes, metric5m, reportOutbox, uploads, acks, acknowledgements,
    acceptedReports, recorded⟩ := s'
  dsimp only at *
  subst hmetric5m hreportOutbox huploads hacceptedReports hacks hacknowledgements
  exact ⟨h.outbox, h.latest, h.uploads, h.accepted, h.acks, h.acknowledgements⟩

theorem Delivered.upload (h : s.Delivered codec reporter) (hs : s.upload k = some s') :
    s'.Delivered codec reporter := by
  obtain ⟨report, hlookup, rfl⟩ := Option.map_eq_some_iff.mp hs
  refine ⟨h.outbox, h.latest, ?_, h.accepted, h.acks, h.acknowledgements⟩
  intro k' report' hmem
  rcases List.mem_append.mp hmem with hold | hnew
  · exact h.uploads k' report' hold
  · obtain ⟨rfl, rfl⟩ : k' = k ∧ report' = report := by simpa using hnew
    obtain ⟨current, hcurrent, hpayload⟩ := h.outbox k' report' hlookup
    exact ⟨current, hcurrent, current, hpayload, Nat.le_refl _, fun _ => rfl⟩

/-- The digest of an acknowledged report is the one of the report that is read. -/
theorem Delivered.acknowledge [DecidableEq δ] {i : ℕ} (hsha : Function.Injective codec.sha256)
    (h : s.Delivered codec reporter) (hs : s.acknowledge codec i = some s') :
    s'.Delivered codec reporter := by
  unfold Sys.acknowledge at hs
  split at hs
  · cases hs
  · next k digestSha256 hack =>
    split at hs
    · rw [← Option.some.inj hs]
      exact h
    · next report hreport =>
      split_ifs at hs with hdigest
      · rw [← Option.some.inj hs]
        refine ⟨h.outbox, h.latest, h.uploads, h.accepted, h.acks, ?_⟩
        intro j k' report' hj
        rcases Slots.get_push_cases hj with ⟨-, heq⟩ | ⟨-, hold⟩
        · obtain ⟨rfl, rfl⟩ := Prod.mk.inj heq
          obtain ⟨payload, hpayload, htaken⟩ :=
            h.acks k' digestSha256 (List.mem_of_getElem? hack)
          have hsame : payload = report'.payload := hsha (hpayload.trans hdigest.symm)
          rw [← hsame]
          exact htaken
        · exact h.acknowledgements j k' report' hold
      · rw [← Option.some.inj hs]
        exact h

theorem Delivered.failDelete {i : ℕ} (h : s.Delivered codec reporter)
    (hs : s.failDelete i = some s') : s'.Delivered codec reporter := by
  obtain ⟨call, -, rfl⟩ := Option.map_eq_some_iff.mp hs
  refine ⟨h.outbox, h.latest, h.uploads, h.accepted, h.acks, ?_⟩
  intro j k report hj
  rcases Slots.get_set_cases hj with ⟨-, heq, -⟩ | ⟨-, hold⟩
  · cases heq
  · exact h.acknowledgements j k report hold

/-- What the Server has accepted at least is the node's value, if it is at least as new. -/
theorem Delivered.eq_of_taken {current : MetricValue} (h : s.Delivered codec reporter)
    (hcurrent : s.metricValue k = some current) (htaken : s.Taken reporter k current.revision) :
    s.acceptedValue reporter k = some current := by
  obtain ⟨value, hvalue, hle⟩ := htaken
  obtain ⟨accepted, hlookup, rfl⟩ := Option.map_eq_some_iff.mp hvalue
  obtain ⟨current', hmem, value', hpayload, hle', heq⟩ := h.accepted k accepted hlookup
  have hsame : current' = current := Option.some.inj (hmem.symm.trans hcurrent)
  subst hsame
  rw [hpayload] at hle
  have hrevision : value'.revision = current'.revision :=
    Saturating.ext (Nat.le_antisymm hle' hle)
  rw [hvalue, hpayload]
  exact congrArg some (heq hrevision)

/-- A delete takes only what the Server has accepted. -/
theorem Delivered.delete {i : ℕ} (h : s.Delivered codec reporter)
    (hdelete : s.Undisturbed reporter (.delete i)) (hs : s.delete i = some s') :
    s'.Delivered codec reporter := by
  obtain ⟨⟨key, report⟩, hget, rfl⟩ := Option.map_eq_some_iff.mp hs
  constructor
  · intro k current hlookup
    exact h.outbox k current (Table.lookup_erase_cases hlookup).2
  · intro k current hcurrent
    by_cases hk : k = key
    · subst hk
      right
      rcases h.latest k current hcurrent with hsome | haccepted
      · obtain ⟨present, hpresent⟩ := Option.isSome_iff_exists.mp hsome
        obtain ⟨current', hmem, hpayload⟩ := h.outbox k present hpresent
        have hsame : current' = current := Option.some.inj (hmem.symm.trans hcurrent)
        subst hsame
        have htaken : s.Taken reporter k present.payload.value.revision := by
          rcases hdelete (k, report) hget present hpresent with rfl | htaken
          · exact h.acknowledgements i k present hget
          · exact htaken
        rw [hpayload] at htaken
        exact h.eq_of_taken hcurrent htaken
      · exact haccepted
    · rcases h.latest k current hcurrent with hsome | haccepted
      · left
        show (AList.lookup k (s.reportOutbox.erase key)).isSome = true
        rw [AList.lookup_erase_ne hk]
        exact hsome
      · exact .inr haccepted
  · exact h.uploads
  · exact h.accepted
  · exact h.acks
  · intro j k report' hj
    rcases Slots.get_set_cases hj with ⟨-, heq, -⟩ | ⟨-, hold⟩
    · cases heq
    · exact h.acknowledgements j k report' hold

section Accept
variable [DecidableEq δ] {report : VerifiedStatisticsReport δ}
  {accepted : ReportAcceptance × Table AcceptedReportKey (AcceptedReport δ)}

/-- The Server's revision of a metric never falls. -/
theorem Taken.accept {revision : U64}
    (haccept : acceptStatisticsReport codec s.acceptedReports report = some accepted)
    (h : s.Taken reporter k revision) :
    Taken reporter { s with acceptedReports := accepted.2 } k revision := by
  rcases acceptStatisticsReport_ok haccept with ⟨hsame, -⟩ | ⟨hinsert, holder⟩
  · rw [hsame]
    exact h
  · obtain ⟨value, hvalue, hle⟩ := h
    obtain ⟨existing, hlookup, rfl⟩ := Option.map_eq_some_iff.mp hvalue
    rw [hinsert]
    unfold Taken acceptedValue
    dsimp only
    by_cases hkey : reporter.acceptedKey k = .of report.payload
    · rw [hkey] at hlookup ⊢
      rw [AList.lookup_insert]
      have hlt := holder existing hlookup
      refine ⟨_, rfl, ?_⟩
      dsimp only
      omega
    · rw [AList.lookup_insert_ne hkey, hlookup]
      exact ⟨_, rfl, hle⟩

/-- A report of this reporter that was made here is taken over, unless a later one was. -/
theorem Delivered.accept (h : s.Delivered codec reporter)
    (haccept : acceptStatisticsReport codec s.acceptedReports report = some accepted)
    (hmade : s.Made reporter k report.payload) :
    Delivered codec reporter { s with acceptedReports := accepted.2 } ∧
      Taken reporter { s with acceptedReports := accepted.2 } k report.payload.value.revision := by
  obtain ⟨current, hcurrent, value, hpayload, hle, heq⟩ := hmade
  have hkey : AcceptedReportKey.of report.payload = reporter.acceptedKey k := by
    rw [hpayload]
    rfl
  have hkeep : ∀ k' revision, s.Taken reporter k' revision →
      Taken reporter { s with acceptedReports := accepted.2 } k' revision :=
    fun _ _ htaken => htaken.accept haccept
  have htakens : (∀ k digestSha256, (k, digestSha256) ∈ s.acks → ∃ payload,
        codec.sha256 payload = digestSha256 ∧
          Taken reporter { s with acceptedReports := accepted.2 } k payload.value.revision) ∧
      ∀ i k report, s.acknowledgements.get i = some (k, report) →
        Taken reporter { s with acceptedReports := accepted.2 } k report.payload.value.revision := by
    constructor
    · intro k' digestSha256 hmem
      obtain ⟨payload, hsha, htaken⟩ := h.acks k' digestSha256 hmem
      exact ⟨payload, hsha, hkeep _ _ htaken⟩
    · intro i k' report' hget
      exact hkeep _ _ (h.acknowledgements i k' report' hget)
  rcases acceptStatisticsReport_ok haccept with ⟨hsame, existing, hexisting, hnewer⟩ |
    ⟨hinsert, holder⟩
  · rw [hkey] at hexisting
    have htaken : s.Taken reporter k report.payload.value.revision :=
      ⟨existing.payload.value, Option.map_eq_some_iff.mpr ⟨existing, hexisting, rfl⟩, hnewer⟩
    refine ⟨⟨h.outbox, ?_, h.uploads, ?_, htakens.1, htakens.2⟩, hkeep _ _ htaken⟩
    · rw [hsame]
      exact h.latest
    · rw [hsame]
      exact h.accepted
  · rw [hkey] at hinsert holder
    have hnew : acceptedValue reporter { s with acceptedReports := accepted.2 } k = some value := by
      unfold acceptedValue
      dsimp only
      rw [hinsert, AList.lookup_insert, hpayload]
      rfl
    have htaken : Taken reporter { s with acceptedReports := accepted.2 } k
        report.payload.value.revision := by
      refine ⟨value, hnew, ?_⟩
      rw [hpayload]
      exact Nat.le_refl _
    refine ⟨⟨h.outbox, ?_, h.uploads, ?_, htakens.1, htakens.2⟩, htaken⟩
    · intro k' current' hcurrent'
      rcases h.latest k' current' hcurrent' with hsome | haccepted
      · exact .inl hsome
      · right
        by_cases hk : k' = k
        · subst hk
          have hsame : current' = current := Option.some.inj (hcurrent'.symm.trans hcurrent)
          subst hsame
          obtain ⟨existing, hexisting, hvalue⟩ := Option.map_eq_some_iff.mp haccepted
          have hlt := holder existing hexisting
          rw [hvalue, hpayload] at hlt
          exact absurd hle (Nat.not_le.mpr hlt)
        · have hne : reporter.acceptedKey k' ≠ reporter.acceptedKey k :=
            fun hsame => hk (Reporter.acceptedKey_inj hsame)
          unfold acceptedValue at haccepted ⊢
          dsimp only
          rw [hinsert, AList.lookup_insert_ne hne]
          exact haccepted
    · intro k' accepted' hlookup
      dsimp only at hlookup
      rw [hinsert] at hlookup
      rcases Table.lookup_insert_cases hlookup with ⟨hk, rfl⟩ | ⟨-, hold⟩
      · have hk := Reporter.acceptedKey_inj hk
        subst hk
        exact ⟨current, hcurrent, value, hpayload, hle, heq⟩
      · exact h.accepted k' accepted' hold

/-- The Server acknowledges what it has accepted. -/
theorem Delivered.deliver {i : ℕ} (h : s.Delivered codec reporter)
    (hs : s.deliver codec i = some s') : s'.Delivered codec reporter := by
  unfold Sys.deliver at hs
  split at hs
  · cases hs
  · next k sent hupload =>
    split at hs
    · cases hs
    · next verified hverify =>
      obtain ⟨accepted, haccept, rfl⟩ := Option.map_eq_some_iff.mp hs
      unfold SignedStatisticsReport.verify at hverify
      split_ifs at hverify
      have hverified := Option.some.inj hverify
      have hpayload : verified.payload = sent.payload := by rw [← hverified]
      have hdigest : verified.digestSha256 = codec.sha256 sent.payload := by rw [← hverified]
      have hmade := h.uploads k sent (List.mem_of_getElem? hupload)
      rw [← hpayload] at hmade
      obtain ⟨hdelivered, htaken⟩ := h.accept haccept hmade
      refine ⟨hdelivered.outbox, hdelivered.latest, hdelivered.uploads, hdelivered.accepted, ?_,
        hdelivered.acknowledgements⟩
      intro k' digestSha256 hmem
      rcases List.mem_append.mp hmem with hold | hnew
      · exact hdelivered.acks k' digestSha256 hold
      · obtain ⟨rfl, rfl⟩ : k' = k ∧ digestSha256 = verified.digestSha256 := by simpa using hnew
        refine ⟨verified.payload, ?_, htaken⟩
        rw [hdigest, hpayload]

/-- A report of another reporter has another key. -/
theorem Delivered.deliverOther (h : s.Delivered codec reporter)
    (hs : s.deliverOther codec reporter report = some s') : s'.Delivered codec reporter := by
  unfold Sys.deliverOther at hs
  split_ifs at hs with hown
  obtain ⟨accepted, haccept, rfl⟩ := Option.map_eq_some_iff.mp hs
  have hkey : ∀ k, reporter.acceptedKey k ≠ .of report.payload := by
    intro k heq
    unfold Reporter.acceptedKey AcceptedReportKey.of at heq
    injection heq with hdeployment hrole hid _ _ _
    exact hown ⟨hdeployment.symm, hrole.symm, hid.symm⟩
  have hsame : ∀ k, accepted.2.lookup (reporter.acceptedKey k) =
      s.acceptedReports.lookup (reporter.acceptedKey k) := by
    intro k
    rcases acceptStatisticsReport_ok haccept with ⟨hsame, -⟩ | ⟨hinsert, -⟩
    · rw [hsame]
    · rw [hinsert, AList.lookup_insert_ne (hkey k)]
  have hvalue : ∀ k, acceptedValue reporter { s with acceptedReports := accepted.2 } k =
      s.acceptedValue reporter k := by
    intro k
    exact congrArg (Option.map fun accepted : AcceptedReport δ => accepted.payload.value) (hsame k)
  have hkeep : ∀ k revision, s.Taken reporter k revision →
      Taken reporter { s with acceptedReports := accepted.2 } k revision :=
    fun _ _ htaken => htaken.accept haccept
  constructor
  · exact h.outbox
  · intro k current hcurrent
    rw [hvalue k]
    exact h.latest k current hcurrent
  · exact h.uploads
  · intro k accepted' hlookup
    exact h.accepted k accepted' ((hsame k).symm.trans hlookup)
  · intro k digestSha256 hmem
    obtain ⟨payload, hsha, htaken⟩ := h.acks k digestSha256 hmem
    exact ⟨payload, hsha, hkeep _ _ htaken⟩
  · intro i k report' hget
    exact hkeep _ _ (h.acknowledgements i k report' hget)

end Accept

/-- A commit replaces the value and the report of a metric together, by those of the next revision. -/
theorem Delivered.commit {i : ℕ} (h : s.Delivered codec reporter)
    (hconserved : s.Conserved codec reporter) (hcommit : s.Undisturbed reporter (.commit i))
    (hs : s.commit i = some s') : s'.Delivered codec reporter := by
  unfold Sys.commit at hs
  split at hs
  · next deltas staged hget =>
    rw [← Option.some.inj hs]
    have hcall := hconserved.flushes i _ hget
    have hunchanged := hcommit _ hget
    have hpoints := lookup_putPoints hcall rfl hunchanged
    have hmap : (staged.map fun row => (row.key, row.report)).map Prod.fst =
        staged.map (·.key) := by
      rw [List.map_map]
      rfl
    have hnodup : (staged.map (·.key)).Nodup := by
      have hkeys : staged.map (·.key) = deltas.keys := hcall.keys rfl
      rw [hkeys]
      exact deltas.nodupKeys
    have hcases : ∀ k, (((putPoints s.metric5m staged).lookup k = s.metric5m.lookup k ∧
          (putReports s.reportOutbox staged).lookup k = s.reportOutbox.lookup k)) ∨
        ∃ point report, (putPoints s.metric5m staged).lookup k = some point ∧
          (putReports s.reportOutbox staged).lookup k = some report ∧
          report.payload = reporter.payload k point.value ∧
          ∀ current ∈ s.metricValue k, current.revision.val < point.value.revision.val := by
      intro k
      rcases hpoints k with ⟨-, hmem, hsame⟩ | ⟨delta, row, -, hrow, hkey, hpoint, hpayload, -⟩
      · refine .inl ⟨hsame, ?_⟩
        apply Table.lookup_insertAll_of_notMem
        rw [hmap]
        exact hmem
      · refine .inr ⟨_, row.report, hpoint, ?_, hpayload, ?_⟩
        · apply Table.lookup_insertAll_of_mem
          · rw [hmap]
            exact hnodup
          · apply List.mem_map.mpr
            exact ⟨row, hrow, by rw [hkey]⟩
        · intro current hcurrent
          obtain ⟨hstored, hmax⟩ := hunchanged row hrow
          rw [hkey] at hstored
          obtain ⟨point, hlookup, rfl⟩ := Option.map_eq_some_iff.mp hcurrent
          rw [← hstored, hlookup] at hmax
          have hmax : point.value.revision.val < u64Max := hmax
          have hrevision : (nextValue (s.metric5m.lookup k) delta).revision =
              point.value.revision + Saturating.ofNat 1 := by
            rw [hlookup]
            rfl
          show point.value.revision.val < (nextValue (s.metric5m.lookup k) delta).revision.val
          rw [hrevision, Saturating.val_add, Saturating.val_ofNat]
          unfold u64Max at *
          omega
    have hmade : ∀ k payload, s.Made reporter k payload → Made reporter
        { s with
          flushes := s.flushes.set i none
          metric5m := putPoints s.metric5m staged
          reportOutbox := putReports s.reportOutbox staged } k payload := by
      intro k payload ⟨current, hcurrent, value, hpayload, hle, heq⟩
      rcases hcases k with ⟨hsame, -⟩ | ⟨point, report, hpoint, -, -, hnewer⟩
      · refine ⟨current, ?_, value, hpayload, hle, heq⟩
        unfold metricValue at hcurrent ⊢
        dsimp only
        rw [hsame]
        exact hcurrent
      · have hlt := hnewer current hcurrent
        refine ⟨point.value, Option.map_eq_some_iff.mpr ⟨point, hpoint, rfl⟩, value, hpayload, ?_, ?_⟩
        · omega
        · intro hrevision
          rw [hrevision] at hle
          omega
    constructor
    · intro k report hlookup
      rcases hcases k with ⟨hsame, hsame'⟩ | ⟨point, report', hpoint, hreport, hpayload, -⟩
      · obtain ⟨current, hcurrent, hpayload⟩ := h.outbox k report (hsame' ▸ hlookup)
        refine ⟨current, ?_, hpayload⟩
        unfold metricValue at hcurrent ⊢
        dsimp only
        rw [hsame]
        exact hcurrent
      · have heq : report' = report := Option.some.inj (hreport.symm.trans hlookup)
        rw [← heq]
        exact ⟨point.value, Option.map_eq_some_iff.mpr ⟨point, hpoint, rfl⟩, hpayload⟩
    · intro k current hcurrent
      rcases hcases k with ⟨hsame, hsame'⟩ | ⟨point, report', -, hreport, -, -⟩
      · unfold metricValue at hcurrent
        dsimp only at hcurrent ⊢
        rw [hsame] at hcurrent
        rw [hsame']
        exact h.latest k current hcurrent
      · left
        dsimp only
        rw [hreport]
        rfl
    · intro k report hmem
      exact hmade k _ (h.uploads k report hmem)
    · intro k accepted hlookup
      exact hmade k _ (h.accepted k accepted hlookup)
    · exact h.acks
    · exact h.acknowledgements
  · cases hs

theorem Delivered.step [DecidableEq δ] {a : Action δ} (hsha : Function.Injective codec.sha256)
    (h : s.Delivered codec reporter) (hconserved : s.Conserved codec reporter)
    (ha : s.Undisturbed reporter a) (hs : s.step codec reporter a = some s') :
    s'.Delivered codec reporter := by
  cases a with
  | record now identity sample =>
    rw [← Option.some.inj hs]
    exact h.of_tables rfl rfl rfl rfl rfl rfl
  | newBatch identity =>
    rw [← Option.some.inj hs]
    exact h.of_tables rfl rfl rfl rfl rfl rfl
  | batchRecord i now value =>
    obtain ⟨batch, -, rfl⟩ := Option.map_eq_some_iff.mp hs
    exact h.of_tables rfl rfl rfl rfl rfl rfl
  | batchFlush i =>
    obtain ⟨batch, -, rfl⟩ := Option.map_eq_some_iff.mp hs
    exact h.of_tables rfl rfl rfl rfl rfl rfl
  | batchDrop i =>
    obtain ⟨batch, -, rfl⟩ := Option.map_eq_some_iff.mp hs
    exact h.of_tables rfl rfl rfl rfl rfl rfl
  | flush =>
    rw [← Option.some.inj hs]
    unfold Sys.flush
    split_ifs
    · exact h
    · exact h.of_tables rfl rfl rfl rfl rfl rfl
  | stage i signatureHex =>
    have hs : s.stage codec reporter i signatureHex = some s' := hs
    unfold Sys.stage at hs
    split at hs
    · obtain ⟨row, -, rfl⟩ := Option.map_eq_some_iff.mp hs
      exact h.of_tables rfl rfl rfl rfl rfl rfl
    · cases hs
  | commit i => exact h.commit hconserved ha hs
  | failFlush i =>
    obtain ⟨call, -, rfl⟩ := Option.map_eq_some_iff.mp hs
    exact h.of_tables rfl rfl rfl rfl rfl rfl
  | upload key => exact h.upload hs
  | deliver i => exact h.deliver hs
  | deliverOther report => exact h.deliverOther hs
  | acknowledge i => exact h.acknowledge hsha hs
  | delete i => exact h.delete ha hs
  | failDelete i => exact h.failDelete hs

/-- What batches and calls of `flush_and_stage` in progress count under a key. -/
def held (s : Sys δ) (k : MetricKey) : Tally u64Max :=
  s.flushes.sum (fun call => (call.deltas.entry k).tally) + s.batches.sum (·.tally k)

theorem held_eq_zero (hflushes : s.flushes.Idle) (hbatches : s.batches.Idle) : s.held k = 0 := by
  unfold held
  rw [hflushes.sum_eq_zero, hbatches.sum_eq_zero, add_zero]

/-- The accumulator and the report outbox are empty. -/
def Drained (s : Sys δ) : Prop := s.accumulator.entries = [] ∧ s.reportOutbox.entries = []

theorem entry_of_entries {accumulator : Accumulator} (h : accumulator.entries = []) :
    accumulator.entry k = {} := by
  have hempty : accumulator = ∅ := AList.ext h
  rw [hempty, entry_empty]

end Sys

variable [DecidableEq δ] {s : Sys δ}

theorem inv_of_reachable (hsha : Function.Injective codec.sha256)
    (h : (machine codec reporter).ReachableWhere (Sys.Undisturbed reporter) s) :
    s.Conserved codec reporter ∧ s.Delivered codec reporter := by
  apply h.invariant
  · exact ⟨Sys.conserved_start, Sys.delivered_start⟩
  · intro t a t' _ ht ha hs
    obtain ⟨hconserved, hdelivered⟩ := ht
    refine ⟨hconserved.step ?_ hs, hdelivered.step hsha hconserved ha hs⟩
    intro i heq call hcall
    subst heq
    exact ha call hcall

/-- In a drained state the Server has the node's own values. They and what is still held count every
recorded sample once; a value of which nothing is held counts exactly the samples of its metric. -/
theorem counted_once (hsha : Function.Injective codec.sha256)
    (h : (machine codec reporter).ReachableWhere (Sys.Undisturbed reporter) s)
    (hdrained : s.Drained) (k : MetricKey) :
    s.acceptedValue reporter k = s.metricValue k ∧
      storedTally (s.metric5m.lookup k) + s.held k = sampleTally (s.samplesAt k) ∧
      (s.held k = 0 → match s.metricValue k with
        | none => s.samplesAt k = []
        | some value => value.Describes (s.samplesAt k)) := by
  obtain ⟨hconserved, hdelivered⟩ := inv_of_reachable hsha h
  obtain ⟨haccumulator, houtbox⟩ := hdrained
  have hempty : s.reportOutbox = ∅ := AList.ext houtbox
  have htally : storedTally (s.metric5m.lookup k) + s.held k = sampleTally (s.samplesAt k) := by
    rw [← hconserved.tally k]
    unfold Sys.held Sys.tally
    rw [Sys.entry_of_entries haccumulator, MetricDelta.tally_empty, add_zero, add_assoc]
  refine ⟨?_, htally, ?_⟩
  · apply hdelivered.acceptedValue_eq
    rw [hempty]
    rfl
  · intro hheld
    rw [hheld, add_zero] at htally
    unfold Sys.metricValue
    cases hlookup : s.metric5m.lookup k with
    | none =>
      rw [hlookup] at htally
      exact eq_nil_of_sampleTally htally.symm
    | some point =>
      rw [hlookup] at htally
      exact describes_of_tally (hconserved.metric5m k point hlookup) htally

section Sample

/-- The length of the JSON text of a map of strings that need no escapes. -/
def plainJsonBytes (dimensions : List (String × String)) : ℕ :=
  2 + (dimensions.map fun e => e.1.utf8ByteSize + e.2.utf8ByteSize + 5).sum + (dimensions.length - 1)

def sampleCodec : ReportCodec StatisticsReportPayload where
  identityJsonBytes identity :=
    34 + identity.metricFamily.utf8ByteSize + plainJsonBytes identity.dimensions
  dimensionsJsonBytes := plainJsonBytes
  sha256 := id

def sampleReporter : Reporter := ⟨"deployment-1", .relay, "relay-1", "certificate"⟩

def sampleIdentity : MetricIdentity := ⟨"relay_transport_upload_bytes", [("home_id", "home-1")]⟩

def sampleKey : MetricKey := (300, sampleIdentity)

/-- Two samples, one of them through a batch, reach the Server twice, and are acknowledged. -/
def sampleRun : List (Action StatisticsReportPayload) :=
  [.record 301 sampleIdentity ⟨42, some 7⟩, .newBatch sampleIdentity, .batchRecord 0 302 8,
    .batchDrop 0, .flush, .stage 0 "01", .commit 0, .upload sampleKey, .deliver 0, .deliver 0,
    .acknowledge 0]

/-- A sample of the same metric is flushed before the acknowledged report is deleted. -/
def sampleRace : List (Action StatisticsReportPayload) :=
  sampleRun ++ [.record 400 sampleIdentity ⟨5, none⟩, .flush, .stage 1 "02", .commit 1, .delete 0]

def sampleValue : MetricValue where
  version := 1
  revision := .ofNat 1
  count := .ofNat 2
  sum := .ofNat 50
  min := 8
  max := 42
  histogram := (List.replicate 13 0).set 2 (.ofNat 1)

/-- The state is drained, and nothing is held. -/
def Sys.quiet (s : Sys δ) : Bool :=
  s.accumulator.entries.isEmpty && s.reportOutbox.entries.isEmpty && decide s.flushes.Idle &&
    decide s.batches.Idle

omit [DecidableEq δ] in
theorem Sys.quiet_iff : s.quiet = true ↔ s.Drained ∧ s.flushes.Idle ∧ s.batches.Idle := by
  unfold Sys.quiet Sys.Drained
  simp [List.isEmpty_iff, and_assoc]

/-- Once the report is deleted nothing is left to send, and both sides have both samples. -/
theorem counted_once_sample :
    ∃ s : Sys StatisticsReportPayload,
      (machine sampleCodec sampleReporter).ReachableWhere (Sys.Undisturbed sampleReporter) s ∧
      s.metricValue sampleKey = some sampleValue ∧
      s.acceptedValue sampleReporter sampleKey = some sampleValue ∧
      sampleValue.Describes [⟨8, none⟩, ⟨42, some 7⟩] := by
  have hrun : ((machine sampleCodec sampleReporter).execWhere (Sys.Undisturbed sampleReporter)
      (sampleRun ++ [.delete 0])).map (fun s => (s.quiet, s.metricValue sampleKey,
        s.samplesAt sampleKey)) =
      some (true, some sampleValue, [⟨8, none⟩, ⟨42, some 7⟩]) := by decide
  obtain ⟨s, hexec, heq⟩ := Option.map_eq_some_iff.mp hrun
  simp only [Prod.mk.injEq] at heq
  obtain ⟨hquiet, hvalue, hsamples⟩ := heq
  obtain ⟨hdrained, hflushes, hbatches⟩ := Sys.quiet_iff.mp hquiet
  have hreach := Machine.reachableWhere_of_execWhere hexec
  have hsha : Function.Injective sampleCodec.sha256 := Function.injective_id
  obtain ⟨haccepted, -, hcounted⟩ := counted_once hsha hreach hdrained sampleKey
  have hdescribes := hcounted (Sys.held_eq_zero hflushes hbatches)
  rw [hvalue, hsamples] at hdescribes
  exact ⟨s, hreach, hvalue, haccepted.trans hvalue, hdescribes⟩

/-- The delete takes the newer report with it: the Server never hears of the last sample. -/
theorem not_counted_once :
    ¬ ∀ s : Sys StatisticsReportPayload, (machine sampleCodec sampleReporter).Reachable s →
      s.Drained → s.flushes.Idle → s.batches.Idle →
      ∀ k, s.acceptedValue sampleReporter k = s.metricValue k := by
  intro hall
  have hrun : ((machine sampleCodec sampleReporter).exec sampleRace).map (fun s =>
      (s.quiet, (s.metricValue sampleKey).map (·.count.val),
        (s.acceptedValue sampleReporter sampleKey).map (·.count.val))) =
      some (true, some 3, some 2) := by decide
  obtain ⟨s, hexec, heq⟩ := Option.map_eq_some_iff.mp hrun
  simp only [Prod.mk.injEq] at heq
  obtain ⟨hquiet, hvalue, haccepted⟩ := heq
  obtain ⟨hdrained, hflushes, hbatches⟩ := Sys.quiet_iff.mp hquiet
  have hsame := hall s (Machine.reachable_of_exec hexec) hdrained hflushes hbatches sampleKey
  rw [hsame, hvalue] at haccepted
  exact absurd haccepted (by decide)

end Sample

end FlowSplice.Statistics
