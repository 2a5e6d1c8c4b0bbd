import FlowSplice.Issuance.Binding
import FlowSplice.Outbox.Session

/-! What a poll of the outbox finds and writes. -/
namespace FlowSplice.EnrollmentOutbox
variable {env : Env} {process : Process} {now : ℕ} {outbox : Outbox}
  {record : RemoteEnrollmentOutboxRecord} {message : ControlMessage}

abbrev Row := Sigma fun _ : Uuid => Option RemoteEnrollmentOutboxRecord

/-- A response that was valid at some time has a certificate with an identity. -/
theorem identity_of_validate {response : TravelEnrollmentResponse}
    (h : (env.validate response now).isSome) :
    ∃ identity, env.identityFromCertificatePem response.managementCertificatePem = some identity := by
  obtain ⟨⟨credential, trust⟩, h⟩ := Option.isSome_iff_exists.mp h
  simp only [Env.validate, validateEnrollmentResponse, Option.bind_eq_bind, Option.bind_eq_some_iff,
    Option.pure_def, Option.some.injEq, ensure_eq_some, Bool.and_eq_true] at h
  obtain ⟨_, -, ⟨management, business⟩, -, _, -, trust', -, _, -, authorities, -, authority, -,
    actual, -, certificate, hcertificate, businessCertificate, -, _, hvalid, -⟩ := h
  have hmanagement := hvalid.1.2
  rw [validateCertificate, Option.any_eq_true] at hmanagement
  obtain ⟨identity, hidentity, -⟩ := hmanagement
  refine ⟨identity, ?_⟩
  rw [Env.identityFromCertificatePem, env.firstCertificate_eq _ _ hcertificate]
  exact hidentity

/-- The record has a message, so that the outbox is pending. -/
def RemoteEnrollmentOutboxRecord.Waits (env : Env) (process : Process)
    (record : RemoteEnrollmentOutboxRecord) : Prop :=
  record.version = remoteEnrollmentVersion ∧ ∃ message, record.message env process = some (some message)

/-- What a poll writes for a row, given the key of the record it selects. -/
def written (now : ℕ) (selected : Option Uuid) (row : Row) :
    Option (Uuid × Option (Option RemoteEnrollmentOutboxRecord)) :=
  row.2.bind fun record =>
    if record.expired now then some (row.1, none)
    else if selected = some row.1 then
      some (row.1, some (some { record with lastAttemptUnixSecs := some now }))
    else none

theorem written_key {selected : Option Uuid} {row : Row}
    {write : Uuid × Option (Option RemoteEnrollmentOutboxRecord)}
    (h : written now selected row = some write) : write.1 = row.1 := by
  rw [written, Option.bind_eq_some_iff] at h
  obtain ⟨record, -, h⟩ := h
  split_ifs at h
  · rw [← Option.some.inj h]
  · rw [← Option.some.inj h]

theorem written_congr {rows : List Row} {key : Uuid} (h : key ∉ rows.map (·.1)) :
    rows.filterMap (written now (some key)) = rows.filterMap (written now none) := by
  apply List.filterMap_congr
  intro row hrow
  have hne : key ≠ row.1 := fun heq => h (heq ▸ List.mem_map_of_mem hrow)
  simp [written, hne]

/-- The record that a loop over the rows selects, unless it has one. -/
def selects (env : Env) (process : Process) (now : ℕ) (scan : Scan) (rows : List Row) :
    Option (Uuid × RemoteEnrollmentOutboxRecord) :=
  if scan.selected.isSome then none else (dueRecords env process now rows).head?

/-- What a loop over rows has added to a scan. -/
structure Scan.Visited (env : Env) (process : Process) (now : ℕ) (scan scan' : Scan)
    (rows : List Row) : Prop where
  batch : scan'.batch = scan.batch ++
    rows.filterMap (written now ((selects env process now scan rows).map Prod.fst))
  selected : match selects env process now scan rows with
    | none => scan'.selected = scan.selected
    | some first => ∃ message, first.2.message env process = some (some message) ∧
        scan'.selected = some (first.2.request.requestId, message)
  pending : scan'.pending = false → scan.pending = false ∧
    ∀ row ∈ rows, ∀ record, row.2 = some record → record.expired now ∨ ¬ record.Waits env process

section Rows
variable {scan scan' scan'' : Scan} {row : Row} {rows rows' : List Row}

theorem mem_dueRecords {key : Uuid} : (key, record) ∈ dueRecords env process now rows ↔
    ⟨key, some record⟩ ∈ rows ∧ record.due env process now = true := by
  simp only [dueRecords, List.mem_filterMap, Option.map_eq_some_iff, Option.filter_eq_some_iff,
    Prod.mk.injEq]
  constructor
  · rintro ⟨⟨key', value⟩, hrow, found, ⟨hvalue, hdue⟩, rfl, rfl⟩
    exact ⟨by rwa [← hvalue], hdue⟩
  · rintro ⟨hrow, hdue⟩
    exact ⟨_, hrow, record, ⟨rfl, hdue⟩, rfl, rfl⟩

theorem mem_of_selects {first : Uuid × RemoteEnrollmentOutboxRecord}
    (h : selects env process now scan rows = some first) :
    scan.selected = none ∧ ⟨first.1, some first.2⟩ ∈ rows ∧ first.2.due env process now = true := by
  unfold selects at h
  split_ifs at h with hselected
  exact ⟨by simpa using hselected, mem_dueRecords.mp (List.mem_of_mem_head? h)⟩

theorem key_of_selects {first : Uuid × RemoteEnrollmentOutboxRecord}
    (h : selects env process now scan rows = some first) : first.1 ∈ rows.map (·.1) :=
  List.mem_map_of_mem (f := (·.1)) (mem_of_selects h).2.1

theorem selects_append : selects env process now scan (rows ++ rows') =
    (selects env process now scan rows).or (selects env process now scan rows') := by
  unfold selects dueRecords
  split
  · rfl
  · rw [List.filterMap_append, List.head?_append]

theorem selects_congr (h : scan'.selected = scan.selected) :
    selects env process now scan' rows = selects env process now scan rows := by
  rw [selects, selects, h]

theorem Scan.Visited.append (h : scan.Visited env process now scan' rows)
    (h' : scan'.Visited env process now scan'' rows') (hkeys : ((rows ++ rows').map (·.1)).Nodup) :
    scan.Visited env process now scan'' (rows ++ rows') := by
  have hdisjoint : ∀ key, key ∈ rows.map (·.1) → key ∉ rows'.map (·.1) := by
    rw [List.map_append] at hkeys
    exact fun key hkey hkey' => List.disjoint_of_nodup_append hkeys hkey hkey'
  have hpending : scan''.pending = false → scan.pending = false ∧ ∀ row ∈ rows ++ rows', ∀ record,
      row.2 = some record → record.expired now ∨ ¬ record.Waits env process := by
    intro hpending
    have hrest := h'.pending hpending
    have hfirst := h.pending hrest.1
    refine ⟨hfirst.1, fun row hrow => ?_⟩
    rcases List.mem_append.mp hrow with hrow | hrow
    · exact hfirst.2 row hrow
    · exact hrest.2 row hrow
  have hbatch := h.batch
  have hbatch' := h'.batch
  have hselected := h.selected
  have hselected' := h'.selected
  cases hfirst : selects env process now scan rows with
  | some first =>
    rw [hfirst] at hbatch hselected
    obtain ⟨message, hmessage, hselected⟩ := hselected
    have hall : selects env process now scan (rows ++ rows') = some first := by
      rw [selects_append, hfirst]
      rfl
    have hrest : selects env process now scan' rows' = none := by
      simp [selects, hselected]
    rw [hrest] at hbatch' hselected'
    constructor
    · have hcongr := @written_congr now _ _ (hdisjoint _ (key_of_selects hfirst))
      rw [hbatch', hbatch, hall, List.append_assoc, List.filterMap_append]
      simp only [Option.map_some, Option.map_none, hcongr]
    · rw [hall]
      exact ⟨message, hmessage, hselected'.trans hselected⟩
    · exact hpending
  | none =>
    rw [hfirst] at hbatch hselected
    have hall : selects env process now scan (rows ++ rows') = selects env process now scan' rows' := by
      rw [selects_append, hfirst, selects_congr hselected]
      rfl
    constructor
    · rw [hbatch', hbatch, hall, List.append_assoc, List.filterMap_append]
      cases hnext : selects env process now scan' rows' with
      | none => rfl
      | some next =>
        have hcongr := @written_congr now rows _ fun hkey =>
          hdisjoint _ hkey (key_of_selects hnext)
        simp only [Option.map_some, Option.map_none, hcongr]
    · rw [hall]
      cases hnext : selects env process now scan' rows' with
      | none =>
        rw [hnext] at hselected'
        exact hselected'.trans hselected
      | some next =>
        rw [hnext] at hselected'
        exact hselected'
    · exact hpending

theorem selects_none (key : Uuid) : selects env process now scan [⟨key, none⟩] = none := by
  unfold selects
  split <;> rfl

theorem selects_some (key : Uuid) (record : RemoteEnrollmentOutboxRecord) :
    selects env process now scan [⟨key, some record⟩] =
      if scan.selected.isSome = true ∨ record.due env process now = false then none
      else some (key, record) := by
  unfold selects dueRecords
  cases scan.selected <;> cases hdue : record.due env process now <;> simp [Option.filter, hdue]

/-- A row that is neither deleted nor due. -/
theorem Scan.visited_same {key : Uuid} {pending : Bool} (hexpired : record.expired now = false)
    (hdue : scan.selected.isSome = true ∨ record.due env process now = false)
    (hpending : pending = false → scan.pending = false ∧ ¬ record.Waits env process) :
    scan.Visited env process now { scan with pending } [⟨key, some record⟩] := by
  have hnone : selects env process now scan [⟨key, some record⟩] = none := by
    rw [selects_some, if_pos hdue]
  constructor
  · simp [hnone, written, hexpired]
  · rw [hnone]
  · intro hp
    refine ⟨(hpending hp).1, ?_⟩
    intro row hrow record' heq
    obtain rfl := List.mem_singleton.mp hrow
    obtain rfl := Option.some.inj heq
    exact .inr (hpending hp).2

theorem Scan.visited_of_visit (h : scan.visit env process now row = some scan') :
    scan.Visited env process now scan' [row] := by
  obtain ⟨key, value⟩ := row
  cases value with
  | none =>
    obtain rfl := Option.some.inj h
    constructor
    · simp [written]
    · rw [selects_none]
    · intro hpending
      simpa using hpending
  | some record =>
    unfold Scan.visit at h
    by_cases hexpired : record.expired now = true
    · simp only [hexpired, if_true, Option.some.injEq] at h
      subst h
      have hdue : record.due env process now = false := by
        simp [RemoteEnrollmentOutboxRecord.due, hexpired]
      have hnone : selects env process now scan [⟨key, some record⟩] = none := by
        rw [selects_some, if_pos (.inr hdue)]
      constructor
      · simp [hnone, written, hexpired]
      · rw [hnone]
      · intro hpending
        refine ⟨hpending, ?_⟩
        intro row hrow record' heq
        obtain rfl := List.mem_singleton.mp hrow
        obtain rfl := Option.some.inj heq
        exact .inl hexpired
    · rw [Bool.not_eq_true] at hexpired
      simp only [hexpired, Bool.false_eq_true, if_false] at h
      by_cases hversion : record.version = remoteEnrollmentVersion
      · simp only [hversion, ne_eq, not_true_eq_false, if_false, Option.bind_eq_bind,
          Option.bind_eq_some_iff] at h
        obtain ⟨waiting, hmessage, h⟩ := h
        cases waiting with
        | none =>
          obtain rfl := Option.some.inj h
          have hdue : record.due env process now = false := by
            simp [RemoteEnrollmentOutboxRecord.due, hmessage]
          refine Scan.visited_same hexpired (.inr hdue) fun hpending => ⟨hpending, ?_⟩
          rintro ⟨-, message, hsome⟩
          rw [hmessage] at hsome
          cases hsome
        | some message =>
          simp only at h
          split_ifs at h with hskip
          · obtain rfl := Option.some.inj h
            apply Scan.visited_same hexpired
            · rw [Bool.or_eq_true] at hskip
              apply hskip.imp id
              intro hattempted
              simp [RemoteEnrollmentOutboxRecord.due, hattempted]
            · intro hpending
              cases hpending
          · obtain rfl := Option.some.inj h
            rw [Bool.not_eq_true, Bool.or_eq_false_iff] at hskip
            have hdue : record.due env process now = true := by
              simp [RemoteEnrollmentOutboxRecord.due, hexpired, hversion, hmessage, hskip.2]
            have hfirst : selects env process now scan [⟨key, some record⟩] = some (key, record) := by
              rw [selects_some, if_neg]
              simp [hskip.1, hdue]
            constructor
            · simp [hfirst, written, hexpired, hversion]
            · rw [hfirst]
              exact ⟨message, hmessage, rfl⟩
            · intro hpending
              cases hpending
      · simp only [ne_eq, hversion, not_false_eq_true, if_true, Option.some.injEq] at h
        subst h
        have hdue : record.due env process now = false := by
          simp [RemoteEnrollmentOutboxRecord.due, hversion]
        refine Scan.visited_same hexpired (.inr hdue) fun hpending => ⟨hpending, ?_⟩
        exact fun hwaits => hversion hwaits.1

theorem Scan.visited_of_foldlM (hkeys : (rows.map (·.1)).Nodup)
    (h : rows.foldlM (Scan.visit env process now) scan = some scan') :
    scan.Visited env process now scan' rows := by
  induction rows generalizing scan with
  | nil =>
    obtain rfl : scan = scan' := by simpa using h
    have hnone : selects env process now scan [] = none := by
      unfold selects
      split <;> rfl
    constructor
    · simp
    · rw [hnone]
    · exact fun hpending => ⟨hpending, by simp⟩
  | cons row rows ih =>
    rw [List.foldlM_cons] at h
    obtain ⟨next, hnext, h⟩ := Option.bind_eq_some_iff.mp h
    have hrest := ih (List.nodup_cons.mp hkeys).2 h
    exact (Scan.visited_of_visit hnext).append hrest hkeys

/-- The loop ends over a certificate without an identity only. -/
theorem isSome_foldlM (h : ∀ row ∈ rows, ∀ record, row.2 = some record →
      (record.message env process).isSome) :
    (rows.foldlM (Scan.visit env process now) scan).isSome := by
  induction rows generalizing scan with
  | nil => rfl
  | cons row rows ih =>
    have hvisit : (scan.visit env process now row).isSome := by
      obtain ⟨key, value⟩ := row
      unfold Scan.visit
      cases value with
      | none => rfl
      | some record =>
        have hmessage := h _ List.mem_cons_self record rfl
        obtain ⟨waiting, hwaiting⟩ := Option.isSome_iff_exists.mp hmessage
        by_cases hexpired : record.expired now = true
        · simp [hexpired]
        · by_cases hversion : record.version = remoteEnrollmentVersion
          · cases waiting with
            | none => simp [hexpired, hversion, hwaiting]
            | some message =>
              by_cases hskip : scan.selected.isSome = true ∨ record.attempted now = true
              · simp [hexpired, hversion, hwaiting, hskip]
              · simp [hexpired, hversion, hwaiting, hskip]
          · simp [hexpired, hversion]
    obtain ⟨next, hnext⟩ := Option.isSome_iff_exists.mp hvisit
    rw [List.foldlM_cons, hnext]
    exact ih fun row hrow => h row (List.mem_cons_of_mem _ hrow)

end Rows

section Poll
variable {outbox' : Outbox} {poll : EnrollmentOutboxPoll} {key : Uuid}

theorem mem_scan {row : Row} : row ∈ outbox.scan ↔ row ∈ outbox.entries :=
  List.mem_insertionSort _

theorem nodup_scan : (outbox.scan.map (·.1)).Nodup := by
  have hperm : outbox.scan.Perm outbox.entries := List.perm_insertionSort _ _
  exact (hperm.map _).nodup_iff.mpr outbox.nodupKeys

/-- The row of a key after a poll that selects the record of another key, or of none. -/
def after (now : ℕ) (selected : Bool) (record : RemoteEnrollmentOutboxRecord) :
    Option (Option RemoteEnrollmentOutboxRecord) :=
  if record.expired now then none
  else if selected then some (some { record with lastAttemptUnixSecs := some now })
  else some (some record)

/-- What a poll does to an outbox. -/
structure Polled (env : Env) (process : Process) (now : ℕ) (outbox outbox' : Outbox)
    (poll : EnrollmentOutboxPoll) (due : List (Uuid × RemoteEnrollmentOutboxRecord)) : Prop where
  lookup : ∀ key, outbox'.lookup key = (outbox.lookup key).bind fun value => match value with
    | none => some none
    | some record => after now (decide ((due.head?.map Prod.fst) = some key)) record
  message : match due.head? with
    | none => poll.message = none
    | some first => ∃ message, first.2.message env process = some (some message) ∧
        poll.message = some (first.2.request.requestId, message)
  pending : poll.pending = false → ∀ key record, outbox'.lookup key = some (some record) →
    ¬ record.Waits env process

theorem polled_of_next
    (h : nextRemoteEnrollmentMessage env process outbox now = some (outbox', poll)) :
    Polled env process now outbox outbox' poll (dueRecords env process now outbox.scan) := by
  unfold nextRemoteEnrollmentMessage at h
  obtain ⟨scan, hscan, h⟩ := Option.bind_eq_some_iff.mp h
  rw [Option.pure_def, Option.some.injEq, Prod.mk.injEq] at h
  obtain ⟨rfl, rfl⟩ := h
  have hvisited := Scan.visited_of_foldlM nodup_scan hscan
  have hselects : selects env process now {} outbox.scan =
      (dueRecords env process now outbox.scan).head? := rfl
  have hbatch := hvisited.batch
  have hselected := hvisited.selected
  rw [hselects] at hbatch hselected
  rw [List.nil_append] at hbatch
  have hlookup : ∀ key, (outbox.writeAll scan.batch).lookup key =
      (outbox.lookup key).bind fun value => match value with
        | none => some none
        | some record => after now
            (decide (((dueRecords env process now outbox.scan).head?.map Prod.fst) = some key))
            record := by
    intro key
    have hperm : outbox.scan.Perm outbox.entries := List.perm_insertionSort _ _
    rw [hbatch, Table.lookup_writeAll_filterMap hperm (fun _ _ h => written_key h)]
    congr 1
    funext value
    cases value with
    | none => rfl
    | some record =>
      unfold written after
      by_cases hexpired : record.expired now = true
      · simp [hexpired]
      · by_cases hkey : ((dueRecords env process now outbox.scan).head?.map Prod.fst) = some key
        · simp [hexpired, hkey]
        · simp [hexpired, hkey]
  constructor
  · exact hlookup
  · cases hhead : (dueRecords env process now outbox.scan).head? with
    | none =>
      rw [hhead] at hselected
      exact hselected
    | some first =>
      rw [hhead] at hselected
      exact hselected
  · intro hpending key record hrecord
    rw [hlookup, Option.bind_eq_some_iff] at hrecord
    obtain ⟨value, hvalue, hrecord⟩ := hrecord
    cases value with
    | none => cases hrecord
    | some old =>
      have hrow : (⟨key, some old⟩ : Row) ∈ outbox.scan :=
        mem_scan.mpr (Table.lookup_eq_some.mp hvalue)
      have hquiet := (hvisited.pending hpending).2 _ hrow old rfl
      simp only [after] at hrecord
      split_ifs at hrecord with hexpired hfirst
      · obtain rfl := Option.some.inj (Option.some.inj hrecord)
        exact hquiet.resolve_left hexpired
      · obtain rfl := Option.some.inj (Option.some.inj hrecord)
        exact hquiet.resolve_left hexpired

end Poll

end FlowSplice.EnrollmentOutbox
