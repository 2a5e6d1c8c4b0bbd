import Mathlib.Data.List.Nodup
import FlowSplice.Issuance.Envelope

/-! The issuance ledger of a Home: `homeagent/src/issuance_ledger.rs`. The section variable stands
for `request_fingerprint`, the SHA-256 of the JSON of a request. -/
namespace FlowSplice.Issuance

def ledgerVersion : ℕ := 1

/-- What an approval is for, beside the request. -/
structure Intent where
  authorityId : String
  scope : TravelCredentialScope
  validForSecs : ℕ
deriving DecidableEq, Repr

structure IssuanceRecord where
  requestId : Uuid
  requestSha256 : String
  authorityId : String
  scope : TravelCredentialScope
  validForSecs : ℕ
  enrollment : TravelResponseEnvelope
  publishedGeneration : Option ℕ := none
deriving DecidableEq, Repr

namespace IssuanceRecord

def credentialId (record : IssuanceRecord) : Uuid :=
  record.enrollment.response.approval.credentialId

def matchesRequestEnvelope (record : IssuanceRecord) (request : TravelRequestEnvelope) : Bool :=
  match record.enrollment, request with
  | .legacy response, .legacy request => response.approval.request == request
  | .business response, .business request => response.request == request
  | .serviceClass response, .serviceClass request => response.request == request
  | _, _ => false

def matchesIntent (record : IssuanceRecord) (intent : Intent) : Bool :=
  record.authorityId == intent.authorityId && record.scope == intent.scope &&
    record.validForSecs == intent.validForSecs

/-- The record without what `mark_published` changes. -/
def core (record : IssuanceRecord) : IssuanceRecord := { record with publishedGeneration := none }

end IssuanceRecord

structure LedgerState where
  version : ℕ := ledgerVersion
  records : List IssuanceRecord := []
deriving DecidableEq, Repr

/-- The reasons for which `find`, `insert_pending` and `mark_published` bail. -/
inductive LedgerError where
  | requestIdReused
  | alreadyContained
  | invalidRecord
  | zeroGeneration
  | unknownCredential
deriving DecidableEq, Repr

section
variable (fingerprint : TravelEnrollmentRequest → String)

def validateRecord (record : IssuanceRecord) : Bool :=
  let approval := record.enrollment.response.approval
  let consistent := match record.enrollment with
    | .serviceClass response => response.request.request == approval.request
    | .business response => response.request.request == approval.request
    | .legacy _ => true
  consistent && record.requestId != 0 && record.requestSha256.utf8ByteSize == 64 &&
    !record.authorityId.isEmpty && record.validForSecs != 0 && approval.credentialId != 0 &&
    approval.request.requestId == record.requestId && approval.authorityId == record.authorityId &&
    approval.scope == record.scope && fingerprint approval.request == record.requestSha256 &&
    record.publishedGeneration != some 0

namespace LedgerState

/-- `validate_state`: one record for each credential and each request, and one content for each
request id. -/
def validate (state : LedgerState) : Bool :=
  state.version == ledgerVersion && state.records.all (validateRecord fingerprint) &&
    decide (state.records.map (·.credentialId)).Nodup &&
    decide (state.records.map (·.requestSha256)).Nodup &&
    decide (state.records.Pairwise fun record other =>
      record.requestId = other.requestId → record.requestSha256 = other.requestSha256)

def find (state : LedgerState) (request : TravelEnrollmentRequest) :
    Except LedgerError (Option IssuanceRecord) :=
  if state.records.any fun record =>
      record.requestId == request.requestId && record.requestSha256 != fingerprint request then
    .error .requestIdReused
  else .ok (state.records.find? (·.requestSha256 == fingerprint request))

/-- `insert_pending` up to its `persist`. -/
def insertPending (state : LedgerState) (request : TravelEnrollmentRequest) (intent : Intent)
    (enrollment : TravelResponseEnvelope) : Except LedgerError (LedgerState × IssuanceRecord) :=
  match state.find fingerprint request with
  | .error error => .error error
  | .ok (some _) => .error .alreadyContained
  | .ok none =>
    let record : IssuanceRecord :=
      { requestId := request.requestId
        requestSha256 := fingerprint request
        authorityId := intent.authorityId
        scope := intent.scope
        validForSecs := intent.validForSecs
        enrollment := enrollment }
    if validateRecord fingerprint record then
      .ok ({ state with records := state.records ++ [record] }, record)
    else .error .invalidRecord

/-- `mark_published` up to its `persist`. -/
def markPublished (state : LedgerState) (credentialId : Uuid) (generation : ℕ) :
    Except LedgerError LedgerState :=
  if generation = 0 then .error .zeroGeneration
  else match state.records.findIdx? (·.credentialId == credentialId) with
    | none => .error .unknownCredential
    | some i => .ok { state with records := state.records.modify i fun record =>
        { record with publishedGeneration := some generation } }

/-- What is never changed in the ledger. -/
def cores (state : LedgerState) : List IssuanceRecord := state.records.map (·.core)

end LedgerState
end

variable {fingerprint : TravelEnrollmentRequest → String} {state state' : LedgerState}
  {request : TravelEnrollmentRequest} {record : IssuanceRecord}

theorem find_error_iff : (∃ error, state.find fingerprint request = .error error) ↔
    ∃ record ∈ state.records, record.requestId = request.requestId ∧
      record.requestSha256 ≠ fingerprint request := by
  unfold LedgerState.find
  split_ifs with hany
  · have hany := List.any_eq_true.mp hany
    simpa using hany
  · simpa using hany

theorem find_none (h : state.find fingerprint request = .ok none) :
    (∀ record ∈ state.records, record.requestSha256 ≠ fingerprint request) ∧
    ∀ record ∈ state.records, record.requestId ≠ request.requestId := by
  have herror := mt find_error_iff.mpr (by rw [h]; rintro ⟨error, ⟨⟩⟩)
  unfold LedgerState.find at h
  split_ifs at h
  have hnone : state.records.find? (·.requestSha256 == fingerprint request) = none :=
    Except.ok.inj h
  have hsha : ∀ record ∈ state.records, record.requestSha256 ≠ fingerprint request := by
    simpa using hnone
  refine ⟨hsha, ?_⟩
  intro record hmem hid
  exact herror ⟨record, hmem, hid, hsha record hmem⟩

theorem find_some (h : state.find fingerprint request = .ok (some record)) :
    record ∈ state.records ∧ record.requestSha256 = fingerprint request := by
  unfold LedgerState.find at h
  split_ifs at h
  have hfind := Except.ok.inj h
  have hsha := List.find?_some hfind
  exact ⟨List.mem_of_find?_eq_some hfind, beq_iff_eq.mp hsha⟩

namespace LedgerState

theorem validate_iff : state.validate fingerprint = true ↔
    state.version = ledgerVersion ∧ (∀ record ∈ state.records, validateRecord fingerprint record) ∧
    (state.records.map (·.credentialId)).Nodup ∧ (state.records.map (·.requestSha256)).Nodup ∧
    state.records.Pairwise fun record other =>
      record.requestId = other.requestId → record.requestSha256 = other.requestSha256 := by
  unfold validate
  simp only [Bool.and_eq_true, beq_iff_eq, List.all_eq_true, decide_eq_true_eq, and_assoc]

/-- What `insert_pending` adds: a record of its arguments, for a request that had none. -/
theorem insertPending_ok {intent : Intent} {enrollment : TravelResponseEnvelope}
    (h : state.insertPending fingerprint request intent enrollment = .ok (state', record)) :
    state.find fingerprint request = .ok none ∧ validateRecord fingerprint record = true ∧
      state' = { state with records := state.records ++ [record] } ∧
      record = ⟨request.requestId, fingerprint request, intent.authorityId, intent.scope,
        intent.validForSecs, enrollment, none⟩ := by
  unfold insertPending at h
  cases hfind : state.find fingerprint request with
  | error error =>
    rw [hfind] at h
    cases h
  | ok found =>
    rw [hfind] at h
    cases found with
    | some found => cases h
    | none =>
      dsimp only at h
      split_ifs at h with hvalid
      have heq := Except.ok.inj h
      have hrecord := congrArg Prod.snd heq
      have hstate := congrArg Prod.fst heq
      dsimp only at hrecord hstate
      subst hrecord
      exact ⟨rfl, hvalid, hstate.symm, rfl⟩

theorem insertPending_validate {intent : Intent} {enrollment : TravelResponseEnvelope}
    (hstate : state.validate fingerprint = true)
    (hfresh : enrollment.response.approval.credentialId ∉ state.records.map (·.credentialId))
    (h : state.insertPending fingerprint request intent enrollment = .ok (state', record)) :
    state'.validate fingerprint = true := by
  obtain ⟨hfind, hvalid, rfl, hrecord⟩ := insertPending_ok h
  obtain ⟨hsha, hid⟩ := find_none hfind
  obtain ⟨hversion, hrecords, hcredentials, hrequests, hcontents⟩ := validate_iff.mp hstate
  have hnewId : record.credentialId ∉ state.records.map (·.credentialId) := by
    rw [hrecord]
    exact hfresh
  have hnewSha : record.requestSha256 ∉ state.records.map (·.requestSha256) := by
    rw [hrecord, List.mem_map]
    rintro ⟨other, hmem, heq⟩
    exact hsha other hmem heq
  apply validate_iff.mpr
  refine ⟨hversion, ?_, ?_, ?_, ?_⟩
  · intro other hmem
    rcases List.mem_append.mp hmem with hmem | hmem
    · exact hrecords other hmem
    · rw [List.mem_singleton.mp hmem]
      exact hvalid
  · rw [List.map_append]
    exact hcredentials.append (List.nodup_singleton _) (by simpa using hnewId)
  · rw [List.map_append]
    exact hrequests.append (List.nodup_singleton _) (by simpa using hnewSha)
  · rw [List.pairwise_append]
    refine ⟨hcontents, List.pairwise_singleton _ _, ?_⟩
    intro other hmem new hnew heq
    rw [List.mem_singleton.mp hnew, hrecord] at heq
    exact absurd heq (hid other hmem)

theorem insertPending_cores {intent : Intent} {enrollment : TravelResponseEnvelope}
    (h : state.insertPending fingerprint request intent enrollment = .ok (state', record)) :
    state'.cores = state.cores ++ [record] := by
  obtain ⟨-, -, rfl, rfl⟩ := insertPending_ok h
  unfold cores
  rw [List.map_append]
  rfl

/-- A change of the generation of one record changes nothing else. -/
theorem map_modify_published {β : Type*} {records : List IssuanceRecord} {i generation : ℕ}
    (f : IssuanceRecord → β)
    (hf : ∀ record : IssuanceRecord, f { record with publishedGeneration := some generation } =
      f record) :
    (records.modify i fun record => { record with publishedGeneration := some generation }).map f =
      records.map f := by
  induction records generalizing i with
  | nil => cases i <;> rfl
  | cons record records ih =>
    cases i with
    | zero => rw [List.modify_zero_cons, List.map_cons, List.map_cons, hf]
    | succ i => rw [List.modify_succ_cons, List.map_cons, List.map_cons, ih]

theorem validateRecord_published {generation : ℕ} (h : validateRecord fingerprint record = true)
    (hgeneration : generation ≠ 0) :
    validateRecord fingerprint { record with publishedGeneration := some generation } = true := by
  unfold validateRecord at h ⊢
  rw [Bool.and_eq_true] at h ⊢
  refine ⟨h.1, ?_⟩
  simpa using hgeneration

theorem markPublished_ok {credentialId : Uuid} {generation : ℕ}
    (h : state.markPublished credentialId generation = .ok state') :
    generation ≠ 0 ∧ ∃ i, state' = { state with records := state.records.modify i fun record =>
      { record with publishedGeneration := some generation } } := by
  unfold markPublished at h
  split_ifs at h with hgeneration
  refine ⟨hgeneration, ?_⟩
  cases hfind : state.records.findIdx? (·.credentialId == credentialId) with
  | none =>
    rw [hfind] at h
    cases h
  | some i =>
    rw [hfind] at h
    exact ⟨i, (Except.ok.inj h).symm⟩

theorem markPublished_cores {credentialId : Uuid} {generation : ℕ}
    (h : state.markPublished credentialId generation = .ok state') :
    state'.cores = state.cores := by
  obtain ⟨-, i, rfl⟩ := markPublished_ok h
  exact map_modify_published _ fun _ => rfl

theorem markPublished_validate {credentialId : Uuid} {generation : ℕ}
    (hstate : state.validate fingerprint = true)
    (h : state.markPublished credentialId generation = .ok state') :
    state'.validate fingerprint = true := by
  obtain ⟨hgeneration, i, rfl⟩ := markPublished_ok h
  obtain ⟨hversion, hrecords, hcredentials, hrequests, hcontents⟩ := validate_iff.mp hstate
  apply validate_iff.mpr
  refine ⟨hversion, ?_, ?_, ?_, ?_⟩
  · intro record hmem
    obtain ⟨j, hj⟩ := List.mem_iff_getElem?.mp hmem
    rw [List.getElem?_modify] at hj
    obtain ⟨old, hold, heq⟩ := Option.map_eq_some_iff.mp hj
    have hvalid := hrecords old (List.mem_of_getElem? hold)
    split_ifs at heq with hij
    · subst heq
      exact validateRecord_published hvalid hgeneration
    · rw [← heq]
      exact hvalid
  · rw [map_modify_published _ fun _ => rfl]
    exact hcredentials
  · rw [map_modify_published _ fun _ => rfl]
    exact hrequests
  · have hpairs : ((state.records.map fun record => (record.requestId, record.requestSha256)).Pairwise
        fun record other => record.1 = other.1 → record.2 = other.2) := List.pairwise_map.mpr hcontents
    have hmap : (state.records.modify i fun record =>
        { record with publishedGeneration := some generation }).map
          (fun record => (record.requestId, record.requestSha256)) =
        state.records.map fun record => (record.requestId, record.requestSha256) :=
      map_modify_published _ fun _ => rfl
    rw [← hmap] at hpairs
    exact List.pairwise_map.mp hpairs

end LedgerState

end FlowSplice.Issuance
