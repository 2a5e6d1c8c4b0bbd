import FlowSplice.Lib.Machine
import FlowSplice.Issuance.Ledger

/-! The calls of `issue_from_home_with_password` in `homeagent/src/main.rs` from the lock of
`issuance_ledger` on, over crashes and restarts. A call keeps the lock until it returns. -/
namespace FlowSplice.Issuance

/-- What signing a Travel draws and makes: the validity in the approval, certificates and
signatures. -/
structure Signing where
  credentialId : Uuid
  notBeforeUnixSecs : ℕ
  notAfterUnixSecs : ℕ
  deploymentTrust : SignedDeploymentTrust
  homeEndpointCredential : Option SignedHomeEndpointCredential := none
  managementCertificatePem : String
  businessCertificatePem : String
  signedCredential : SignedTravelCredential
  approval : SignedTravelApproval
deriving DecidableEq, Repr

/-- `issue_enrollment` of an approval of the intent. -/
def issueEnrollment (request : TravelEnrollmentRequest) (intent : Intent) (signing : Signing) :
    TravelEnrollmentResponse where
  approval :=
    { credentialId := signing.credentialId
      authorityId := intent.authorityId
      scope := intent.scope
      request := request
      notBeforeUnixSecs := signing.notBeforeUnixSecs
      notAfterUnixSecs := signing.notAfterUnixSecs }
  deploymentTrust := signing.deploymentTrust
  homeEndpointCredential := signing.homeEndpointCredential
  managementCertificatePem := signing.managementCertificatePem
  businessCertificatePem := signing.businessCertificatePem
  signedCredential := signing.signedCredential

/-- `issue_service_class_travel`, `issue_business_travel` or `issue_enrollment`. -/
def issueTravel (request : TravelRequestEnvelope) (intent : Intent) (signing : Signing) :
    TravelResponseEnvelope :=
  let response := issueEnrollment request.request intent signing
  match request with
  | .serviceClass request =>
    .serviceClass { request := request, response := response, approval := signing.approval }
  | .business request =>
    .business { request := request, response := response, approval := signing.approval }
  | .legacy _ => .legacy response

/-- How `persist` ends. One that fails may have replaced the file. -/
inductive Persist where
  | stored
  | failed (replaced : Bool)
deriving DecidableEq, Repr

def Persist.write (persist : Persist) (file : Option LedgerState) (state : LedgerState) :
    Option LedgerState :=
  match persist with
  | .stored => some state
  | .failed replaced => if replaced then some state else file

/-- What a call does after its look into the ledger. -/
inductive Decision where
  | refuse
  | reuse (generation : ℕ)
  | publish (record : IssuanceRecord)
  | issue
deriving DecidableEq, Repr

/-- A call in `publish_enrollment`, before or after it has handed over the credential. -/
structure Call where
  request : TravelRequestEnvelope
  intent : Intent
  record : IssuanceRecord
  handedOver : Bool := false
deriving DecidableEq, Repr

structure Process where
  ledger : LedgerState
  call : Option Call := none
deriving DecidableEq, Repr

structure Published where
  request : TravelRequestEnvelope
  intent : Intent
  enrollment : TravelResponseEnvelope
deriving DecidableEq, Repr

/-- `published` logs what was handed to `publish_enrollment`. -/
structure Sys where
  file : Option LedgerState
  process : Option Process := none
  published : List Published := []
deriving DecidableEq, Repr

inductive Action where
  | load
  | crash
  | issue (request : TravelRequestEnvelope) (intent : Intent) (active : Bool)
      (signing : Option Signing) (persist : Persist)
  | publish
  | confirm (generation : ℕ) (persist : Persist)
  | abandon
deriving DecidableEq, Repr

section
variable (fingerprint : TravelEnrollmentRequest → String)

/-- The branches over `ledger.find`. A record that is not active any more is not used again. -/
def LedgerState.decision (state : LedgerState) (request : TravelRequestEnvelope) (intent : Intent)
    (active : Bool) : Decision :=
  match state.find fingerprint request.request with
  | .error _ => .refuse
  | .ok none => .issue
  | .ok (some record) =>
    if !record.matchesIntent intent || !record.matchesRequestEnvelope request || !active then
      .refuse
    else match record.publishedGeneration with
      | some generation => .reuse generation
      | none => .publish record

namespace Sys

/-- `IssuanceLedger::load`. -/
def load (s : Sys) : Option Sys :=
  if s.process.isSome then none
  else
    let state := s.file.getD {}
    some (if state.validate fingerprint then { s with process := some { ledger := state } } else s)

/-- A new record: it is put into the ledger, which is then stored. A drawn credential id is new to
the ledger. -/
def insert (s : Sys) (p : Process) (request : TravelRequestEnvelope) (intent : Intent)
    (signing : Signing) (persist : Persist) : Option Sys :=
  if signing.credentialId ∈ p.ledger.records.map (·.credentialId) then none
  else match p.ledger.insertPending fingerprint request.request intent
      (issueTravel request intent signing) with
    | .error _ => some s
    | .ok (ledger, record) =>
      let call : Option Call :=
        if persist = .stored then some { request := request, intent := intent, record := record }
        else none
      some { s with file := persist.write s.file ledger, process := some ⟨ledger, call⟩ }

/-- A call up to `publish_enrollment`. The keys may be unavailable, or refuse to sign. -/
def issue (s : Sys) (request : TravelRequestEnvelope) (intent : Intent) (active : Bool)
    (signing : Option Signing) (persist : Persist) : Option Sys :=
  match s.process with
  | some ⟨ledger, none⟩ =>
    match ledger.decision fingerprint request intent active with
    | .refuse | .reuse _ => some s
    | .publish record =>
      let call : Call := { request := request, intent := intent, record := record }
      some { s with process := some ⟨ledger, some call⟩ }
    | .issue =>
      match signing with
      | none => some s
      | some signing => s.insert fingerprint ⟨ledger, none⟩ request intent signing persist
  | _ => none

/-- The credential goes to the control connection. -/
def publish (s : Sys) : Option Sys :=
  match s.process with
  | some ⟨ledger, some ⟨request, intent, record, false⟩⟩ =>
    some { s with
      process := some ⟨ledger, some ⟨request, intent, record, true⟩⟩
      published := s.published ++ [⟨request, intent, record.enrollment⟩] }
  | _ => none

/-- The Server has taken the credential. -/
def confirm (s : Sys) (generation : ℕ) (persist : Persist) : Option Sys :=
  match s.process with
  | some ⟨ledger, some ⟨_, _, record, true⟩⟩ =>
    match ledger.markPublished record.credentialId generation with
    | .error _ => some { s with process := some ⟨ledger, none⟩ }
    | .ok ledger =>
      some { s with file := persist.write s.file ledger, process := some ⟨ledger, none⟩ }
  | _ => none

/-- The publication fails or times out, or the call is dropped. -/
def abandon (s : Sys) : Option Sys :=
  match s.process with
  | some ⟨ledger, some _⟩ => some { s with process := some ⟨ledger, none⟩ }
  | _ => none

def step (s : Sys) : Action → Option Sys
  | .load => s.load fingerprint
  | .crash => s.process.map fun _ => { s with process := none }
  | .issue request intent active signing persist =>
    s.issue fingerprint request intent active signing persist
  | .publish => s.publish
  | .confirm generation persist => s.confirm generation persist
  | .abandon => s.abandon

/-- The records in the file, without their generations. -/
def fileCores (s : Sys) : List IssuanceRecord := (s.file.getD {}).cores

/-- A call that would publish a record from the ledger finds that record in the file as well. -/
def retryStored (s : Sys) : Action → Bool
  | .issue request intent active _ _ => s.process.all fun p =>
    match p.ledger.decision fingerprint request intent active with
    | .publish record => s.fileCores.contains record.core
    | _ => true
  | _ => true

end Sys

/-- The issuer of a Home, from the ledger file that it finds at first. -/
def machine (file : Option LedgerState) : Machine Sys Action where
  start := { file }
  step := Sys.step fingerprint

/-- The record was made for that request and intent. -/
structure IssuanceRecord.For (record : IssuanceRecord) (request : TravelRequestEnvelope)
    (intent : Intent) : Prop where
  sha : record.requestSha256 = fingerprint request.request
  intent : record.matchesIntent intent = true
  envelope : record.matchesRequestEnvelope request = true

/-- What holds in every run: the ledger is valid and goes beyond the file. -/
structure Sys.Kept (s : Sys) : Prop where
  file : ∀ state, s.file = some state → state.validate fingerprint = true
  ledger : ∀ p, s.process = some p → p.ledger.validate fingerprint = true
  beyond : ∀ p, s.process = some p → s.fileCores <+: p.ledger.cores
  call : ∀ p call, s.process = some p → p.call = some call →
    call.record.core.For fingerprint call.request call.intent

/-- What holds where retries are stored: records are in the file before they are published. -/
structure Sys.Stored (s : Sys) : Prop where
  call : ∀ p call, s.process = some p → p.call = some call → call.record.core ∈ s.fileCores
  published : ∀ a ∈ s.published, ∃ record ∈ s.fileCores,
    record.For fingerprint a.request a.intent ∧ record.enrollment = a.enrollment

end

variable {fingerprint : TravelEnrollmentRequest → String} {s s' : Sys} {state : LedgerState}
  {record : IssuanceRecord} {request request' : TravelRequestEnvelope} {intent intent' : Intent}
  {signing : Signing} {persist : Persist}

theorem matchesIntent_inj (h : record.matchesIntent intent = true)
    (h' : record.matchesIntent intent' = true) : intent = intent' := by
  simp only [IssuanceRecord.matchesIntent, Bool.and_eq_true, beq_iff_eq] at h h'
  cases intent
  cases intent'
  simp_all

theorem matchesRequestEnvelope_inj (h : record.matchesRequestEnvelope request = true)
    (h' : record.matchesRequestEnvelope request' = true) : request = request' := by
  unfold IssuanceRecord.matchesRequestEnvelope at h h'
  cases henrollment : record.enrollment <;> cases request <;> cases request' <;>
    simp_all

/-- A record that is found decides what becomes of the call. -/
theorem decision_publish {active : Bool}
    (h : state.decision fingerprint request intent active = .publish record) :
    state.find fingerprint request.request = .ok (some record) ∧
      record.For fingerprint request intent := by
  unfold LedgerState.decision at h
  split at h
  · cases h
  · cases h
  · next found hfind =>
    split_ifs at h with hmatch
    simp only [Bool.or_eq_true, Bool.not_eq_true', not_or, Bool.not_eq_false] at hmatch
    obtain ⟨⟨hintent, henvelope⟩, -⟩ := hmatch
    cases hgeneration : found.publishedGeneration with
    | some generation =>
      rw [hgeneration] at h
      cases h
    | none =>
      rw [hgeneration] at h
      have heq := Decision.publish.inj h
      subst heq
      exact ⟨hfind, (find_some hfind).2, hintent, henvelope⟩

/-- One that was made for the same request under another intent or in another envelope is
refused. -/
theorem decision_refuse {active : Bool} (hvalid : state.validate fingerprint = true)
    (hmem : record ∈ state.cores) (hfor : record.For fingerprint request intent)
    (hrequest : request'.request = request.request)
    (hother : intent' ≠ intent ∨ request' ≠ request) :
    state.decision fingerprint request' intent' active = .refuse := by
  obtain ⟨own, hown, hcore⟩ := List.mem_map.mp hmem
  have hsha : own.requestSha256 = fingerprint request'.request := by
    have hrecord := hfor.sha
    rw [← hcore] at hrecord
    rw [hrequest]
    exact hrecord
  unfold LedgerState.decision
  split
  · rfl
  · next hfind => exact absurd hsha ((find_none hfind).1 own hown)
  · next found hfind =>
    obtain ⟨hfound, hfoundSha⟩ := find_some hfind
    have hsame : found = own := by
      have hnodup := (LedgerState.validate_iff.mp hvalid).2.2.2.1
      exact List.inj_on_of_nodup_map hnodup hfound hown (hfoundSha.trans hsha.symm)
    have hintent : own.matchesIntent intent = true := by
      have h := hfor.intent
      rw [← hcore] at h
      exact h
    have henvelope : own.matchesRequestEnvelope request = true := by
      have h := hfor.envelope
      rw [← hcore] at h
      exact h
    rw [hsame, if_pos]
    rw [Bool.or_eq_true, Bool.or_eq_true]
    left
    rcases hother with hne | hne
    · left
      rw [Bool.not_eq_true', ← Bool.not_eq_true]
      exact fun h => hne (matchesIntent_inj h hintent)
    · right
      rw [Bool.not_eq_true', ← Bool.not_eq_true]
      exact fun h => hne (matchesRequestEnvelope_inj h henvelope)

/-- What `insert_pending` has put into the ledger is for that request and intent. -/
theorem for_of_insertPending {ledger : LedgerState}
    (h : state.insertPending fingerprint request.request intent
      (issueTravel request intent signing) = .ok (ledger, record)) :
    record.core = record ∧ record.For fingerprint request intent := by
  obtain ⟨-, -, -, rfl⟩ := LedgerState.insertPending_ok h
  refine ⟨rfl, rfl, ?_, ?_⟩
  · simp [IssuanceRecord.matchesIntent]
  · cases request <;> simp [IssuanceRecord.matchesRequestEnvelope, issueTravel, issueEnrollment,
      TravelRequestEnvelope.request]

/-- A write leaves the file as it was, or replaces it by the ledger. -/
theorem Persist.write_cases (persist : Persist) (file : Option LedgerState) (state : LedgerState) :
    persist.write file state = file ∧ persist ≠ .stored ∨
      persist.write file state = some state := by
  cases persist with
  | stored => exact .inr rfl
  | failed replaced =>
    cases replaced with
    | false => exact .inl ⟨rfl, fun h => by cases h⟩
    | true => exact .inr rfl

namespace Sys

/-- The steps: the file changes only when a call writes the ledger into it. -/
inductive Moves (fingerprint : TravelEnrollmentRequest → String) (s : Sys) : Action → Sys → Prop where
  | same (a : Action) : Moves fingerprint s a s
  | load (hnone : s.process = none) (hvalid : (s.file.getD {}).validate fingerprint = true) :
      Moves fingerprint s .load { s with process := some ⟨s.file.getD {}, none⟩ }
  | crash : Moves fingerprint s .crash { s with process := none }
  | retry (request : TravelRequestEnvelope) (intent : Intent) (active : Bool)
      (signing : Option Signing) (persist : Persist) (ledger : LedgerState)
      (record : IssuanceRecord) (hp : s.process = some ⟨ledger, none⟩)
      (hd : ledger.decision fingerprint request intent active = .publish record) :
      Moves fingerprint s (.issue request intent active signing persist)
        { s with process := some ⟨ledger, some ⟨request, intent, record, false⟩⟩ }
  | insert (request : TravelRequestEnvelope) (intent : Intent) (active : Bool)
      (signing : Signing) (persist : Persist) (old ledger : LedgerState) (record : IssuanceRecord)
      (call : Option Call) (hp : s.process = some ⟨old, none⟩)
      (hfresh : signing.credentialId ∉ old.records.map (·.credentialId))
      (hi : old.insertPending fingerprint request.request intent
        (issueTravel request intent signing) = .ok (ledger, record))
      (hcall : ∀ c, call = some c → persist = .stored ∧ c = ⟨request, intent, record, false⟩) :
      Moves fingerprint s (.issue request intent active (some signing) persist)
        { s with file := persist.write s.file ledger, process := some ⟨ledger, call⟩ }
  | publish (ledger : LedgerState) (request : TravelRequestEnvelope) (intent : Intent)
      (record : IssuanceRecord) (hp : s.process = some ⟨ledger, some ⟨request, intent, record, false⟩⟩) :
      Moves fingerprint s .publish { s with
        process := some ⟨ledger, some ⟨request, intent, record, true⟩⟩
        published := s.published ++ [⟨request, intent, record.enrollment⟩] }
  | confirm (generation : ℕ) (persist : Persist) (old ledger : LedgerState) (call : Call)
      (hp : s.process = some ⟨old, some call⟩)
      (hm : old.markPublished call.record.credentialId generation = .ok ledger) :
      Moves fingerprint s (.confirm generation persist)
        { s with file := persist.write s.file ledger, process := some ⟨ledger, none⟩ }
  | leave (a : Action) (ledger : LedgerState) (call : Call) (hp : s.process = some ⟨ledger, some call⟩) :
      Moves fingerprint s a { s with process := some ⟨ledger, none⟩ }

theorem moves_insert {ledger : LedgerState} (active : Bool) (hp : s.process = some ⟨ledger, none⟩)
    (h : s.insert fingerprint ⟨ledger, none⟩ request intent signing persist = some s') :
    Moves fingerprint s (.issue request intent active (some signing) persist) s' := by
  unfold insert at h
  split at h
  · cases h
  · next hfresh =>
    split at h
    · rw [← Option.some.inj h]
      exact .same _
    · next next record hi =>
      rw [← Option.some.inj h]
      refine .insert request intent active signing persist ledger next record _ hp hfresh hi ?_
      intro c hc
      split_ifs at hc with hstored
      exact ⟨hstored, (Option.some.inj hc).symm⟩

theorem moves_of_step {a : Action} (h : s.step fingerprint a = some s') :
    Moves fingerprint s a s' := by
  cases a with
  | load =>
    have h : s.load fingerprint = some s' := h
    unfold load at h
    split_ifs at h with hsome
    have heq := Option.some.inj h
    subst heq
    split_ifs with hvalid
    · exact .load (by simpa using hsome) hvalid
    · exact .same _
  | crash =>
    have h : (s.process.map fun _ => { s with process := none }) = some s' := h
    obtain ⟨p, -, rfl⟩ := Option.map_eq_some_iff.mp h
    exact .crash
  | issue request intent active signing persist =>
    have h : s.issue fingerprint request intent active signing persist = some s' := h
    unfold issue at h
    split at h
    · next ledger hp =>
      split at h
      · rw [← Option.some.inj h]
        exact .same _
      · rw [← Option.some.inj h]
        exact .same _
      · next record hd =>
        rw [← Option.some.inj h]
        exact .retry request intent active signing persist ledger record hp hd
      · split at h
        · rw [← Option.some.inj h]
          exact .same _
        · exact moves_insert active hp h
    · cases h
  | publish =>
    have h : s.publish = some s' := h
    unfold publish at h
    split at h
    · next ledger request intent record hp =>
      rw [← Option.some.inj h]
      exact .publish ledger request intent record hp
    · cases h
  | confirm generation persist =>
    have h : s.confirm generation persist = some s' := h
    unfold confirm at h
    split at h
    · next ledger request intent record hp =>
      split at h
      · rw [← Option.some.inj h]
        exact .leave _ ledger _ hp
      · next ledger' hm =>
        rw [← Option.some.inj h]
        exact .confirm generation persist ledger ledger' _ hp hm
    · cases h
  | abandon =>
    have h : s.abandon = some s' := h
    unfold abandon at h
    split at h
    · next ledger call hp =>
      rw [← Option.some.inj h]
      exact .leave _ ledger call hp
    · cases h

variable {a : Action} {ledger : LedgerState}

theorem fileCores_write {process : Option Process} {published : List Published}
    (hbeyond : s.fileCores <+: ledger.cores) :
    s.fileCores <+: (⟨persist.write s.file ledger, process, published⟩ : Sys).fileCores ∧
      (⟨persist.write s.file ledger, process, published⟩ : Sys).fileCores <+: ledger.cores ∧
      (persist = .stored →
        (⟨persist.write s.file ledger, process, published⟩ : Sys).fileCores = ledger.cores) := by
  rcases persist.write_cases s.file ledger with ⟨heq, hne⟩ | heq
  · have hcores : (⟨persist.write s.file ledger, process, published⟩ : Sys).fileCores =
        s.fileCores := by
      unfold fileCores
      rw [heq]
    rw [hcores]
    exact ⟨List.prefix_rfl, hbeyond, fun h => absurd h hne⟩
  · have hcores : (⟨persist.write s.file ledger, process, published⟩ : Sys).fileCores =
        ledger.cores := by
      unfold fileCores
      rw [heq]
      rfl
    rw [hcores]
    exact ⟨hbeyond, List.prefix_rfl, fun _ => rfl⟩

theorem file_write (hfile : ∀ state, s.file = some state → state.validate fingerprint = true)
    (hledger : ledger.validate fingerprint = true) :
    ∀ state, persist.write s.file ledger = some state → state.validate fingerprint = true := by
  intro state hstate
  rcases persist.write_cases s.file ledger with ⟨heq, -⟩ | heq
  · exact hfile state (heq ▸ hstate)
  · rw [heq] at hstate
    rw [← Option.some.inj hstate]
    exact hledger

/-- A running process, with the call that it may be in. -/
theorem Kept.running {file : Option LedgerState} {call : Option Call} {published : List Published}
    (hfile : ∀ state, file = some state → state.validate fingerprint = true)
    (hledger : ledger.validate fingerprint = true)
    (hbeyond : (⟨file, some ⟨ledger, call⟩, published⟩ : Sys).fileCores <+: ledger.cores)
    (hcall : ∀ c, call = some c → c.record.core.For fingerprint c.request c.intent) :
    Sys.Kept fingerprint ⟨file, some ⟨ledger, call⟩, published⟩ := by
  refine ⟨hfile, ?_, ?_, ?_⟩
  · intro p hp
    rw [← Option.some.inj hp]
    exact hledger
  · intro p hp
    rw [← Option.some.inj hp]
    exact hbeyond
  · intro p c hp hc
    rw [← Option.some.inj hp] at hc
    exact hcall c hc

theorem Kept.stopped {published : List Published}
    (hfile : ∀ state, s.file = some state → state.validate fingerprint = true) :
    Sys.Kept fingerprint ⟨s.file, none, published⟩ := by
  refine ⟨hfile, ?_, ?_, ?_⟩
  · intro p hp
    cases hp
  · intro p hp
    cases hp
  · intro p c hp
    cases hp

theorem insertPending_beyond {old : LedgerState} (hk : s.Kept fingerprint)
    (hp : s.process = some ⟨old, none⟩)
    (hi : old.insertPending fingerprint request.request intent
      (issueTravel request intent signing) = .ok (ledger, record)) :
    s.fileCores <+: ledger.cores := by
  rw [LedgerState.insertPending_cores hi]
  exact (hk.beyond _ hp).trans (List.prefix_append _ _)

theorem markPublished_beyond {old : LedgerState} {call : Option Call} {credentialId : Uuid}
    {generation : ℕ} (hk : s.Kept fingerprint) (hp : s.process = some ⟨old, call⟩)
    (hm : old.markPublished credentialId generation = .ok ledger) :
    s.fileCores <+: ledger.cores := by
  rw [LedgerState.markPublished_cores hm]
  exact hk.beyond _ hp

theorem Kept.step (h : s.Kept fingerprint) (hs : s.step fingerprint a = some s') :
    s'.Kept fingerprint := by
  cases moves_of_step hs with
  | same => exact h
  | load hnone hvalid =>
    apply Kept.running h.file hvalid List.prefix_rfl
    intro c hc
    cases hc
  | crash => exact Kept.stopped h.file
  | retry request intent active signing persist ledger record hp hd =>
    apply Kept.running h.file (h.ledger _ hp) (h.beyond _ hp)
    intro c hc
    rw [← Option.some.inj hc]
    have hfor := (decision_publish hd).2
    exact ⟨hfor.sha, hfor.intent, hfor.envelope⟩
  | insert request intent active signing persist old ledger record call hp hfresh hi hcall =>
    have hvalid : ledger.validate fingerprint = true := by
      apply LedgerState.insertPending_validate (h.ledger _ hp) _ hi
      cases request <;> exact hfresh
    have hbeyond := insertPending_beyond h hp hi
    apply Kept.running (file_write h.file hvalid) hvalid (fileCores_write hbeyond).2.1
    intro c hc
    have heq := (hcall c hc).2
    obtain ⟨hcore, hfor⟩ := for_of_insertPending hi
    subst heq
    rw [hcore]
    exact hfor
  | publish ledger request intent record hp =>
    have hfor := h.call _ _ hp rfl
    apply Kept.running h.file (h.ledger _ hp) (h.beyond _ hp)
    intro c hc
    rw [← Option.some.inj hc]
    exact hfor
  | confirm generation persist old ledger call hp hm =>
    have hvalid := LedgerState.markPublished_validate (h.ledger _ hp) hm
    have hbeyond := markPublished_beyond h hp hm
    apply Kept.running (file_write h.file hvalid) hvalid (fileCores_write hbeyond).2.1
    intro c hc
    cases hc
  | leave a ledger call hp =>
    apply Kept.running h.file (h.ledger _ hp) (h.beyond _ hp)
    intro c hc
    cases hc

theorem fileCores_same (process : Option Process) :
    s.fileCores <+: (⟨s.file, process, s.published⟩ : Sys).fileCores := List.prefix_rfl

/-- The file keeps its records, and the record of a call that goes on to publish is in it. -/
theorem Stored.running {file : Option LedgerState} {process : Option Process}
    (h : s.Stored fingerprint)
    (hfile : s.fileCores <+: (⟨file, process, s.published⟩ : Sys).fileCores)
    (hcall : ∀ p c, process = some p → p.call = some c →
      c.record.core ∈ (⟨file, process, s.published⟩ : Sys).fileCores) :
    Sys.Stored fingerprint ⟨file, process, s.published⟩ := by
  refine ⟨hcall, ?_⟩
  intro a ha
  obtain ⟨record, hmem, hfor⟩ := h.published a ha
  exact ⟨record, hfile.subset hmem, hfor⟩

theorem Stored.idle {file : Option LedgerState} {process : Option Process} (h : s.Stored fingerprint)
    (hfile : s.fileCores <+: (⟨file, process, s.published⟩ : Sys).fileCores)
    (hidle : ∀ p, process = some p → p.call = none) :
    Sys.Stored fingerprint ⟨file, process, s.published⟩ := by
  apply h.running hfile
  intro p c hp hc
  rw [hidle p hp] at hc
  cases hc

/-- Records that are in the file before they are published stay there. -/
theorem Stored.step (hk : s.Kept fingerprint) (h : s.Stored fingerprint)
    (hg : s.retryStored fingerprint a = true) (hs : s.step fingerprint a = some s') :
    s'.Stored fingerprint := by
  cases moves_of_step hs with
  | same => exact h
  | load hnone hvalid =>
    apply h.idle (fileCores_same _)
    intro p hp
    rw [← Option.some.inj hp]
  | crash =>
    apply h.idle (fileCores_same _)
    intro p hp
    cases hp
  | retry request intent active signing persist ledger record hp hd =>
    apply h.running (fileCores_same _)
    intro p c hp' hc
    rw [← Option.some.inj hp'] at hc
    rw [← Option.some.inj hc]
    simp only [retryStored, hp, Option.all_some, hd, List.contains_iff_mem] at hg
    exact hg
  | insert request intent active signing persist old ledger record call hp hfresh hi hcall =>
    have hbeyond := insertPending_beyond hk hp hi
    apply h.running (fileCores_write hbeyond).1
    intro p c hp' hc
    rw [← Option.some.inj hp'] at hc
    obtain ⟨hstored, heq⟩ := hcall c hc
    rw [(fileCores_write hbeyond).2.2 hstored, LedgerState.insertPending_cores hi, heq,
      (for_of_insertPending hi).1]
    exact List.mem_append_right _ (List.mem_singleton_self record)
  | publish ledger request intent record hp =>
    have hmem := h.call _ _ hp rfl
    have hfor := hk.call _ _ hp rfl
    refine ⟨?_, ?_⟩
    · intro p c hp' hc
      rw [← Option.some.inj hp'] at hc
      rw [← Option.some.inj hc]
      exact hmem
    · intro a ha
      rcases List.mem_append.mp ha with ha | ha
      · exact h.published a ha
      · rw [List.mem_singleton.mp ha]
        exact ⟨record.core, hmem, hfor, rfl⟩
  | confirm generation persist old ledger call hp hm =>
    apply h.idle (fileCores_write (markPublished_beyond hk hp hm)).1
    intro p hp'
    rw [← Option.some.inj hp']
  | leave a ledger call hp =>
    apply h.idle (fileCores_same _)
    intro p hp'
    rw [← Option.some.inj hp']

/-- The file has one record for each request. -/
theorem Kept.unique {other : IssuanceRecord} (h : s.Kept fingerprint) (hrecord : record ∈ s.fileCores)
    (hother : other ∈ s.fileCores) (hsha : record.requestSha256 = other.requestSha256) :
    record = other := by
  unfold fileCores at hrecord hother
  cases hfile : s.file with
  | none =>
    rw [hfile] at hrecord
    cases hrecord
  | some state =>
    rw [hfile] at hrecord hother
    have hnodup := (LedgerState.validate_iff.mp (h.file state hfile)).2.2.2.1
    have hcores : (state.cores.map (·.requestSha256)).Nodup := by
      unfold LedgerState.cores
      rw [List.map_map]
      exact hnodup
    exact List.inj_on_of_nodup_map hcores hrecord hother hsha

end Sys

variable {file : Option LedgerState}

/-- The ledger and every ledger file are valid, whatever fails. -/
theorem Sys.kept_of_reachable
    (hfile : ∀ state, file = some state → state.validate fingerprint = true)
    (h : (machine fingerprint file).Reachable s) : s.Kept fingerprint := by
  apply h.invariant
  · exact Sys.Kept.stopped (s := ⟨file, none, []⟩) hfile
  · intro t a t' hk hs
    exact hk.step hs

theorem Sys.stored_of_reachable
    (hfile : ∀ state, file = some state → state.validate fingerprint = true)
    (h : (machine fingerprint file).ReachableWhere
      (fun s a => s.retryStored fingerprint a = true) s) :
    s.Stored fingerprint := by
  apply h.invariant
  · refine ⟨?_, ?_⟩
    · intro p c hp
      cases hp
    · intro a ha
      cases ha
  · intro t a t' hr hstored hg hs
    exact hstored.step (Sys.kept_of_reachable hfile hr.reachable) hg hs

/-- As long as a record that is published again is in the file, a request gets one credential, and
what was handed over is in the file, before and ever after. Another envelope or intent for the
request of any record is refused. -/
theorem issued_once (hfile : ∀ state, file = some state → state.validate fingerprint = true)
    (h : (machine fingerprint file).ReachableWhere
      (fun s a => s.retryStored fingerprint a = true) s) :
    (∀ a ∈ s.published, ∀ b ∈ s.published, a.request.request = b.request.request →
      a.enrollment = b.enrollment) ∧
    (∀ a ∈ s.published, ∃ record ∈ s.fileCores, record.For fingerprint a.request a.intent ∧
      record.enrollment = a.enrollment) ∧
    (∀ s', s.step fingerprint .publish = some s' → ∃ record ∈ s.fileCores, ∃ a,
      s'.published = s.published ++ [a] ∧ record.For fingerprint a.request a.intent ∧
        record.enrollment = a.enrollment) ∧
    (∀ a ∈ s.published, ∀ p request intent active, s.process = some p →
      request.request = a.request.request → (intent ≠ a.intent ∨ request ≠ a.request) →
      p.ledger.decision fingerprint request intent active = .refuse) ∧
    (∀ p, s.process = some p → ∀ record ∈ p.ledger.cores, ∀ request intent,
      record.For fingerprint request intent → ∀ request' intent' active,
      request'.request = request.request → (intent' ≠ intent ∨ request' ≠ request) →
      p.ledger.decision fingerprint request' intent' active = .refuse) ∧
    ∀ state, s.file = some state → state.validate fingerprint = true := by
  have hk := Sys.kept_of_reachable hfile h.reachable
  have hstored := Sys.stored_of_reachable hfile h
  refine ⟨?_, hstored.published, ?_, ?_, ?_, hk.file⟩
  · intro a ha b hb hrequest
    obtain ⟨record, hrecord, hfor, henrollment⟩ := hstored.published a ha
    obtain ⟨other, hother, hforOther, henrollmentOther⟩ := hstored.published b hb
    have hsha : record.requestSha256 = other.requestSha256 := by
      rw [hfor.sha, hforOther.sha, hrequest]
    rw [← henrollment, ← henrollmentOther, hk.unique hrecord hother hsha]
  · intro s' hs
    have hs : s.publish = some s' := hs
    unfold Sys.publish at hs
    split at hs
    · next ledger request intent record hp =>
      rw [← Option.some.inj hs]
      exact ⟨record.core, hstored.call _ _ hp rfl, _, rfl, hk.call _ _ hp rfl, rfl⟩
    · cases hs
  · intro a ha p request intent active hp hrequest hother
    obtain ⟨record, hrecord, hfor, -⟩ := hstored.published a ha
    have hmem := (hk.beyond p hp).subset hrecord
    exact decision_refuse (hk.ledger p hp) hmem hfor hrequest hother
  · intro p hp record hmem request intent hfor request' intent' active hrequest hother
    exact decision_refuse (hk.ledger p hp) hmem hfor hrequest hother

/-! A request for which two signings are drawn. -/

def sampleRequest : TravelEnrollmentRequest where
  requestId := 1
  nonce := "aa"
  travelId := "travel-1"
  createdAtUnixSecs := 1000
  managementCsrPem := "management"
  businessCsrPem := "business"

def sampleIntent : Intent := ⟨"authority-1", .global, 3600⟩

def sampleSigning (credentialId : Uuid) : Signing where
  credentialId := credentialId
  notBeforeUnixSecs := 700
  notAfterUnixSecs := 4600
  deploymentTrust := ⟨"7b7d", "0"⟩
  managementCertificatePem := "management"
  businessCertificatePem := "business"
  signedCredential := ⟨"authority-1", "cc", "b"⟩
  approval := ⟨"authority-1", "dd", "b"⟩

def sampleFingerprint (request : TravelEnrollmentRequest) : String :=
  samplePin (if request = sampleRequest then '1' else '2')

def sampleIssue (credentialId : Uuid) (persist : Persist) : Action :=
  .issue (.legacy sampleRequest) sampleIntent true (some (sampleSigning credentialId)) persist

/-- The ledger is stored, although the write fails, and the process crashes twice. -/
def storedRetry : List Action :=
  [.load, sampleIssue 1 (.failed true), .crash, .load, sampleIssue 2 .stored, .publish, .crash,
    .load, sampleIssue 3 .stored, .publish, .confirm 7 (.failed false)]

/-- The write of a new record fails, the call is made again, and the process crashes. -/
def lostRecord : List Action :=
  [.load, sampleIssue 1 (.failed false), sampleIssue 2 .stored, .publish, .crash, .load,
    sampleIssue 3 .stored, .publish]

theorem issued_once_storedRetry :
    ∃ s, (machine sampleFingerprint none).execWhere
      (fun s a => s.retryStored sampleFingerprint a = true) storedRetry = some s ∧
    s.published.map (·.enrollment.response.approval.credentialId) = [1, 1] ∧
    ∀ a ∈ s.published, ∀ b ∈ s.published, a.request.request = b.request.request →
      a.enrollment = b.enrollment := by
  have hrun : ((machine sampleFingerprint none).execWhere
      (fun s a => s.retryStored sampleFingerprint a = true) storedRetry).map
      (fun s => s.published.map (·.enrollment.response.approval.credentialId)) = some [1, 1] := by
    decide
  obtain ⟨s, hs, heq⟩ := Option.map_eq_some_iff.mp hrun
  have hall := issued_once (fun state h => by cases h) (Machine.reachableWhere_of_execWhere hs)
  exact ⟨s, hs, heq, hall.1⟩

/-- One request gets two credentials, and the first of them was in no file. -/
theorem not_issued_once :
    (∃ s, (machine sampleFingerprint none).exec lostRecord = some s ∧
      s.published.map (·.enrollment.response.approval.credentialId) = [1, 3]) ∧
    ¬ ∀ s, (machine sampleFingerprint none).Reachable s →
      ∀ a ∈ s.published, ∀ b ∈ s.published, a.request.request = b.request.request →
        a.enrollment = b.enrollment := by
  have hrun : ((machine sampleFingerprint none).exec lostRecord).map
      (fun s => s.published.map fun a =>
        (a.request.request, a.enrollment.response.approval.credentialId)) =
        some [(sampleRequest, 1), (sampleRequest, 3)] := by
    decide
  obtain ⟨s, hs, heq⟩ := Option.map_eq_some_iff.mp hrun
  refine ⟨⟨s, hs, ?_⟩, ?_⟩
  · have hids := congrArg (List.map Prod.snd) heq
    rw [List.map_map] at hids
    exact hids
  · intro hall
    obtain ⟨a, rest, hpublished, ha, hrest⟩ := List.map_eq_cons_iff.mp heq
    obtain ⟨b, hb, hb'⟩ := List.map_eq_singleton_iff.mp hrest
    subst hb
    simp only [Prod.mk.injEq] at ha hb'
    have hsame := hall s (Machine.reachable_of_exec hs) a (by simp [hpublished]) b
      (by simp [hpublished]) (ha.1.trans hb'.1.symm)
    have hid : (1 : ℕ) = 3 := by
      rw [← ha.2, ← hb'.2, hsame]
    omega

end FlowSplice.Issuance
