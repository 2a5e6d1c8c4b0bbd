import FlowSplice.Outbox.Polling

/-! What is known of the records of an outbox, and which steps of a Travel keep it. -/
namespace FlowSplice.EnrollmentOutbox
variable {env : Env} {process : Process} {now : ℕ} {outbox outbox' : Outbox}
  {record record' : RemoteEnrollmentOutboxRecord} {message : ControlMessage} {key : Uuid} {s s' : Sys}

namespace Outbox

theorem get_eq_some : outbox.get key = some record ↔ outbox.lookup key = some (some record) := by
  rw [Outbox.get, Option.join_eq_some_iff]

theorem get_insert (outbox : Outbox) (key key' : Uuid) (record : RemoteEnrollmentOutboxRecord) :
    Outbox.get (outbox.insert key' (some record)) key =
      if key = key' then some record else outbox.get key := by
  by_cases hkey : key = key'
  · rw [Outbox.get, hkey, AList.lookup_insert, if_pos rfl]
    rfl
  · rw [Outbox.get, AList.lookup_insert_ne hkey, if_neg hkey]
    rfl

theorem get_erase (outbox : Outbox) (key key' : Uuid) :
    Outbox.get (outbox.erase key') key = if key = key' then none else outbox.get key := by
  by_cases hkey : key = key'
  · rw [Outbox.get, hkey, AList.lookup_erase, if_pos rfl]
    rfl
  · rw [Outbox.get, AList.lookup_erase_ne hkey, if_neg hkey]
    rfl

theorem get_prune (h : (outbox.prune now).get key = some record) : outbox.get key = some record := by
  rw [get_eq_some, prune, Table.lookup_retain, Option.filter_eq_some_iff] at h
  exact get_eq_some.mpr h.1

end Outbox

/-- What is known of a record, given what was submitted: it is found by its request id, and its
response is the Home's and was valid when it was stored. -/
structure Stored (env : Env) (submitted : List TravelEnrollmentRequest) (key : Uuid)
    (record : RemoteEnrollmentOutboxRecord) : Prop where
  requestId : record.request.requestId = key
  submitted : ∀ request ∈ submitted, request.requestId = key → request = record.request
  answered : ∀ response, record.response = some response →
    env.answer record.request = some response ∧ ∃ now, (env.validate response now).isSome

/-- A record goes on with its request, its response and its installation. -/
structure Grown (record record' : RemoteEnrollmentOutboxRecord) : Prop where
  request : record'.request = record.request
  response : record.response.isSome → record'.response.isSome
  installed : record.installedCredentialId.isSome → record'.installedCredentialId.isSome

theorem Grown.refl (record : RemoteEnrollmentOutboxRecord) : Grown record record :=
  ⟨rfl, id, id⟩

/-- What is known of a Travel, its installation and what was delivered to it. -/
structure Known (env : Env) (s : Sys) : Prop where
  stored : ∀ key record, s.outbox.get key = some record → Stored env s.submitted key record
  confirmed : ∀ key ∈ s.confirmed, ∀ record, s.outbox.get key = some record →
    record.installedCredentialId.isSome
  copied : ∀ key copy, s.installing = some (key, copy) →
    Stored env s.submitted key copy ∧ copy.response.isSome ∧
      ∀ record, s.outbox.get key = some record → record.request = copy.request
  requested : ∀ delivery ∈ s.delivered, delivery.message.requestId ∈ s.confirmed ∨
    delivery.message.requestId ∈ s.submitted.map (·.requestId)
  answered : ∀ delivery ∈ s.delivered, ∀ key json error,
    delivery.message = .remoteEnrollmentResult key true (some json) error →
    ∀ record, s.outbox.get key = some record → record.response.isSome
  acknowledged : ∀ delivery ∈ s.delivered, ∀ key error,
    delivery.message = .remoteEnrollmentInstalledAck key true error → s.outbox.get key = none

/-- No record waits to be sent. -/
def Quiet (env : Env) (process : Process) (outbox : Outbox) : Prop :=
  ∀ key record, outbox.get key = some record → ¬ record.Waits env process

/-- What a session has scanned. -/
structure Scanned (env : Env) (s : Sys) : Prop where
  checked : ∀ session, s.session = some session → session.checkedGeneration ≤ s.generation
  quiet : ∀ session, s.session = some session → session.pending = false →
    session.checkedGeneration = s.generation → Quiet env s.process s.outbox
  initial : s.generation = 0 → Quiet env s.process s.outbox

/-- A record that waited while another one was sent was due then. -/
structure Ordered (s : Sys) : Prop where
  passed : ∀ pair ∈ s.passed, ∀ record record', s.outbox.get pair.1 = some record →
    s.outbox.get pair.2 = some record' → ∀ attempt attempt', record.lastAttemptUnixSecs = some attempt →
    record'.lastAttemptUnixSecs = some attempt' → attempt + 10 ≤ attempt'
  overtaken : s.overtaken = false

section Known

/-- Records that go on as they are known keep what is known. -/
theorem Known.grown (h : Known env s) {generation : ℕ} {session : Option Session}
    (hgrown : ∀ key record', outbox'.get key = some record' →
      ∃ record, s.outbox.get key = some record ∧ Grown record record' ∧
        Stored env s.submitted key record') :
    Known env { s with outbox := outbox', generation, session } where
  stored key record' hrecord' := by
    obtain ⟨record, -, -, hstored⟩ := hgrown key record' hrecord'
    exact hstored
  confirmed key hkey record' hrecord' := by
    obtain ⟨record, hrecord, hrest, -⟩ := hgrown key record' hrecord'
    exact hrest.installed (h.confirmed key hkey record hrecord)
  copied key copy hcopy := by
    have hold := h.copied key copy hcopy
    refine ⟨hold.1, hold.2.1, ?_⟩
    intro record' hrecord'
    obtain ⟨record, hrecord, hrest, -⟩ := hgrown key record' hrecord'
    exact hrest.request.trans (hold.2.2 record hrecord)
  requested := h.requested
  answered delivery hdelivery key json error hmessage record' hrecord' := by
    obtain ⟨record, hrecord, hrest, -⟩ := hgrown key record' hrecord'
    exact hrest.response (h.answered delivery hdelivery key json error hmessage record hrecord)
  acknowledged delivery hdelivery key error hmessage := by
    have hnone := h.acknowledged delivery hdelivery key error hmessage
    by_contra hsome
    obtain ⟨record', hrecord'⟩ := Option.ne_none_iff_exists'.mp hsome
    obtain ⟨record, hrecord, -⟩ := hgrown key record' hrecord'
    rw [hnone] at hrecord
    cases hrecord

end Known

/-- What a message does that is delivered in time. -/
inductive Received (env : Env) (outbox : Outbox) : ControlMessage → Outbox → Bool → Prop where
  | ignored (message : ControlMessage)
      (hresult : ∀ key json error, message ≠ .remoteEnrollmentResult key true (some json) error)
      (hacknowledged : ∀ key error, message ≠ .remoteEnrollmentInstalledAck key true error) :
      Received env outbox message outbox false
  | known (key : Uuid) (json : List UInt8) (error : Option String)
      (record : RemoteEnrollmentOutboxRecord) (hrecord : outbox.get key = some record)
      (hresponse : record.response.isSome) :
      Received env outbox (.remoteEnrollmentResult key true (some json) error) outbox true
  | stored (key : Uuid) (json : List UInt8) (error : Option String)
      (record : RemoteEnrollmentOutboxRecord) (response : TravelEnrollmentResponse) (now : ℕ)
      (hrecord : outbox.get key = some record) (hnone : record.response = none)
      (hanswer : env.answer record.request = some response)
      (hvalid : (env.validate response now).isSome) :
      Received env outbox (.remoteEnrollmentResult key true (some json) error)
        (outbox.insert key (some { record with response := some response })) true
  | acknowledged (key : Uuid) (error : Option String) (record : RemoteEnrollmentOutboxRecord)
      (hrecord : outbox.get key = some record) :
      Received env outbox (.remoteEnrollmentInstalledAck key true error) (outbox.erase key) true

section Deliver

theorem Known.received_result (h : Known env s) {json : List UInt8} {error : Option String}
    (hhonest : s.honest env (.deliver (.remoteEnrollmentResult key true (some json) error) now) = true)
    (htimely : s.timely env (.deliver (.remoteEnrollmentResult key true (some json) error) now) = true) :
    ∃ outbox', receive env s.outbox now (.remoteEnrollmentResult key true (some json) error) =
        some (outbox', true) ∧
      Received env s.outbox (.remoteEnrollmentResult key true (some json) error) outbox' true := by
  simp only [Sys.honest, List.any_eq_true, Bool.and_eq_true, beq_iff_eq, Bool.not_true,
    Bool.false_or, Option.all_some] at hhonest
  obtain ⟨request, hrequest, hkey, hsome, hanswer⟩ := hhonest
  obtain ⟨response, hdecode⟩ := Option.isSome_iff_exists.mp hsome
  rw [hdecode] at hanswer
  simp only [Sys.timely, hdecode, Option.any_some, Bool.and_eq_true] at htimely
  obtain ⟨record, hrecord⟩ := Option.isSome_iff_exists.mp htimely.1
  obtain ⟨valid, hvalid⟩ := Option.isSome_iff_exists.mp htimely.2
  have hstored := h.stored key record hrecord
  have hsame : request = record.request := hstored.submitted request hrequest hkey
  have hof : response.approval.request = record.request := by
    rw [env.answer_request request response hanswer.symm, hsame]
  rw [hsame] at hanswer
  cases hresponse : record.response with
  | some existing =>
    have heq : existing = response := by
      have hthis := (hstored.answered existing hresponse).1
      rw [← hanswer] at hthis
      exact (Option.some.inj hthis).symm
    refine ⟨s.outbox, ?_, .known key json error record hrecord (by simp [hresponse])⟩
    simp [receive, applyRemoteEnrollmentResult, hdecode, hvalid, hrecord, hof, hresponse, heq,
      hstored.requestId, ensure]
  | none =>
    refine ⟨_, ?_, .stored key json error record response now hrecord hresponse hanswer.symm
      htimely.2⟩
    simp [receive, applyRemoteEnrollmentResult, hdecode, hvalid, hrecord, hof, hresponse,
      hstored.requestId, ensure]

theorem Known.received_acknowledged (h : Known env s) {error : Option String}
    (hhonest : s.honest env (.deliver (.remoteEnrollmentInstalledAck key true error) now) = true)
    (htimely : s.timely env (.deliver (.remoteEnrollmentInstalledAck key true error) now) = true) :
    receive env s.outbox now (.remoteEnrollmentInstalledAck key true error) =
        some (s.outbox.erase key, true) ∧
      Received env s.outbox (.remoteEnrollmentInstalledAck key true error) (s.outbox.erase key) true := by
  simp only [Sys.honest, List.contains_iff_mem] at hhonest
  simp only [Sys.timely] at htimely
  obtain ⟨record, hrecord⟩ := Option.isSome_iff_exists.mp htimely
  have hinstalled := h.confirmed key hhonest record hrecord
  refine ⟨?_, .acknowledged key error record hrecord⟩
  simp [receive, acknowledgeRemoteEnrollmentInstall, hrecord, hinstalled, ensure]

/-- A message of an honest Server that comes in time ends no session. -/
theorem Known.received (h : Known env s) (hhonest : s.honest env (.deliver message now) = true)
    (htimely : s.timely env (.deliver message now) = true) :
    ∃ outbox' changed, receive env s.outbox now message = some (outbox', changed) ∧
      Received env s.outbox message outbox' changed := by
  cases message with
  | travelEnrollmentSubmit requestId travelId travelSessionId homeId requestJson =>
    simp [Sys.honest] at hhonest
  | remoteEnrollmentInstalled requestId travelId travelSessionId credentialId homeId =>
    simp [Sys.honest] at hhonest
  | remoteEnrollmentResult key accepted responseJson error =>
    cases accepted with
    | false => exact ⟨s.outbox, false, rfl, .ignored _ (by simp) (by simp)⟩
    | true =>
      cases responseJson with
      | none => exact ⟨s.outbox, false, rfl, .ignored _ (by simp) (by simp)⟩
      | some json =>
        obtain ⟨outbox', hreceive, hreceived⟩ := h.received_result hhonest htimely
        exact ⟨outbox', true, hreceive, hreceived⟩
  | remoteEnrollmentInstalledAck key accepted error =>
    cases accepted with
    | false => exact ⟨s.outbox, false, rfl, .ignored _ (by simp) (by simp)⟩
    | true =>
      have hreceived := h.received_acknowledged hhonest htimely
      exact ⟨_, true, hreceived⟩

/-- A message adds a response or takes the record away. -/
theorem Received.grown {changed : Bool} (h : Received env outbox message outbox' changed)
    (hrecord' : outbox'.get key = some record') :
    ∃ record, outbox.get key = some record ∧ Grown record record' ∧
      record'.lastAttemptUnixSecs = record.lastAttemptUnixSecs ∧
      ∀ submitted, Stored env submitted key record → Stored env submitted key record' := by
  cases h with
  | ignored => exact ⟨record', hrecord', .refl record', rfl, fun _ h => h⟩
  | known => exact ⟨record', hrecord', .refl record', rfl, fun _ h => h⟩
  | stored key' json error record response now hrecord hnone hanswer hvalid =>
    rw [Outbox.get_insert] at hrecord'
    split_ifs at hrecord' with hkey
    · subst hkey
      obtain rfl := Option.some.inj hrecord'
      refine ⟨record, hrecord, ⟨rfl, fun _ => rfl, id⟩, rfl, ?_⟩
      intro submitted hstored
      refine ⟨hstored.requestId, hstored.submitted, ?_⟩
      intro response' hresponse'
      obtain rfl := Option.some.inj hresponse'
      exact ⟨hanswer, now, hvalid⟩
    · exact ⟨record', hrecord', .refl record', rfl, fun _ h => h⟩
  | acknowledged key' error record hrecord =>
    rw [Outbox.get_erase] at hrecord'
    split_ifs at hrecord' with hkey
    exact ⟨record', hrecord', .refl record', rfl, fun _ h => h⟩

theorem Received.same {changed : Bool} (h : Received env outbox message outbox' changed)
    (hchanged : changed = false) : outbox' = outbox := by
  cases h with
  | ignored => rfl
  | _ => cases hchanged

/-- The state after a message that was received. -/
def Sys.received (s : Sys) (message : ControlMessage) (session : Session) (outbox : Outbox)
    (changed : Bool) : Sys :=
  { s with
    outbox
    generation := s.generation + changed.toNat
    session := some { session with
      inFlight := session.inFlight.filter fun inFlight => inFlight.1 != message.requestId }
    delivered := s.delivered ++ [⟨message, s.outbox, outbox⟩] }

theorem requested_of_honest (h : s.honest env (.deliver message now) = true) :
    message.requestId ∈ s.confirmed ∨ message.requestId ∈ s.submitted.map (·.requestId) := by
  cases message with
  | travelEnrollmentSubmit => simp [Sys.honest] at h
  | remoteEnrollmentInstalled => simp [Sys.honest] at h
  | remoteEnrollmentResult requestId accepted responseJson error =>
    simp only [Sys.honest, List.any_eq_true, Bool.and_eq_true, beq_iff_eq] at h
    obtain ⟨request, hrequest, hid, -⟩ := h
    exact .inr (List.mem_map.mpr ⟨request, hrequest, hid⟩)
  | remoteEnrollmentInstalledAck requestId accepted error =>
    simp only [Sys.honest, List.contains_iff_mem] at h
    exact .inl h

theorem Known.receive (h : Known env s) {session : Session} {changed : Bool}
    (hreceived : Received env s.outbox message outbox' changed)
    (hhonest : s.honest env (.deliver message now) = true) :
    Known env (s.received message session outbox' changed) := by
  have hgrown : ∀ key record', outbox'.get key = some record' →
      ∃ record, s.outbox.get key = some record ∧ Grown record record' ∧
        Stored env s.submitted key record' := by
    intro key record' hrecord'
    obtain ⟨record, hrecord, hrest, -, hstored⟩ := hreceived.grown hrecord'
    exact ⟨record, hrecord, hrest, hstored _ (h.stored key record hrecord)⟩
  have hknown := @Known.grown _ _ _ h (s.generation + changed.toNat) (some { session with
      inFlight := session.inFlight.filter fun inFlight => inFlight.1 != message.requestId }) hgrown
  refine
    { stored := hknown.stored
      confirmed := hknown.confirmed
      copied := hknown.copied
      requested := ?_
      answered := ?_
      acknowledged := ?_ }
  · intro delivery hdelivery
    rcases List.mem_append.mp hdelivery with hold | hnew
    · exact h.requested delivery hold
    · obtain rfl := List.mem_singleton.mp hnew
      exact requested_of_honest hhonest
  · intro delivery hdelivery key json error hmessage record hrecord
    rcases List.mem_append.mp hdelivery with hold | hnew
    · exact hknown.answered delivery hold key json error hmessage record hrecord
    · obtain rfl := List.mem_singleton.mp hnew
      change message = _ at hmessage
      cases hreceived with
      | ignored _ hresult => exact absurd hmessage (hresult key json error)
      | known key' json' error' record' hrecord' hresponse =>
        cases hmessage
        rw [show (s.received _ session s.outbox true).outbox.get key = s.outbox.get key from rfl,
          hrecord'] at hrecord
        rw [← Option.some.inj hrecord]
        exact hresponse
      | stored key' json' error' record' response =>
        cases hmessage
        change Outbox.get (s.outbox.insert key _) key = some record at hrecord
        rw [Outbox.get_insert, if_pos rfl] at hrecord
        rw [← Option.some.inj hrecord]
        rfl
      | acknowledged => cases hmessage
  · intro delivery hdelivery key error hmessage
    rcases List.mem_append.mp hdelivery with hold | hnew
    · exact hknown.acknowledged delivery hold key error hmessage
    · obtain rfl := List.mem_singleton.mp hnew
      change message = _ at hmessage
      cases hreceived with
      | ignored _ _ hacknowledged => exact absurd hmessage (hacknowledged key error)
      | known => cases hmessage
      | stored => cases hmessage
      | acknowledged =>
        cases hmessage
        change Outbox.get (s.outbox.erase key) key = none
        rw [Outbox.get_erase, if_pos rfl]

/-- A message that is received again changes nothing. -/
theorem Known.repeated (h : Known env s) {changed : Bool}
    (hreceived : Received env s.outbox message outbox' changed) :
    ∀ delivery ∈ s.delivered, delivery.message = message → outbox' = s.outbox := by
  intro delivery hdelivery hmessage
  cases hreceived with
  | ignored => rfl
  | known => rfl
  | stored key json error record response now hrecord hnone =>
    have hsome := h.answered delivery hdelivery key json error hmessage record hrecord
    rw [hnone] at hsome
    cases hsome
  | acknowledged key error record hrecord =>
    have hnone := h.acknowledged delivery hdelivery key error hmessage
    rw [hnone] at hrecord
    cases hrecord

theorem Scanned.receive (h : Scanned env s) {session : Session} {changed : Bool}
    (hsession : s.session = some session)
    (hreceived : Received env s.outbox message outbox' changed) :
    Scanned env (s.received message session outbox' changed) := by
  have hchecked := h.checked session hsession
  cases changed with
  | false =>
    have hsame := hreceived.same rfl
    subst hsame
    constructor
    · intro session' hsession'
      obtain rfl := Option.some.inj hsession'
      exact hchecked
    · intro session' hsession' hpending hgeneration
      obtain rfl := Option.some.inj hsession'
      exact h.quiet session hsession hpending hgeneration
    · exact h.initial
  | true =>
    constructor
    · intro session' hsession'
      obtain rfl := Option.some.inj hsession'
      show session.checkedGeneration ≤ s.generation + 1
      omega
    · intro session' hsession' hpending hgeneration
      obtain rfl := Option.some.inj hsession'
      change session.checkedGeneration = s.generation + 1 at hgeneration
      omega
    · intro hgeneration
      change s.generation + 1 = 0 at hgeneration
      omega

end Deliver

/-- Records that keep the times of their attempts keep the order. -/
theorem Ordered.keep (h : Ordered s) (hpassed : s'.passed = s.passed)
    (hovertaken : s'.overtaken = s.overtaken)
    (hattempt : ∀ key record', s'.outbox.get key = some record' →
      ∀ attempt, record'.lastAttemptUnixSecs = some attempt →
      ∃ record, s.outbox.get key = some record ∧ record.lastAttemptUnixSecs = some attempt) :
    Ordered s' := by
  constructor
  · intro pair hpair record₁ record₂ hrecord₁ hrecord₂ attempt₁ attempt₂ hattempt₁ hattempt₂
    rw [hpassed] at hpair
    obtain ⟨old₁, hold₁, hlast₁⟩ := hattempt _ _ hrecord₁ attempt₁ hattempt₁
    obtain ⟨old₂, hold₂, hlast₂⟩ := hattempt _ _ hrecord₂ attempt₂ hattempt₂
    exact h.passed pair hpair old₁ old₂ hold₁ hold₂ attempt₁ attempt₂ hlast₁ hlast₂
  · exact hovertaken.trans h.overtaken

section Poll
variable {poll : EnrollmentOutboxPoll} {due rest : List (Uuid × RemoteEnrollmentOutboxRecord)}
  {first : Uuid × RemoteEnrollmentOutboxRecord}

/-- Stored responses have a certificate with an identity, so that a poll ends no session. -/
theorem Known.next_isSome (h : Known env s) (now : ℕ) :
    (nextRemoteEnrollmentMessage env s.process s.outbox now).isSome := by
  have hmessage : ∀ row ∈ s.outbox.scan, ∀ record, row.2 = some record →
      (record.message env s.process).isSome := by
    intro row hrow record hrecord
    have hget : s.outbox.get row.1 = some record := by
      rw [Outbox.get_eq_some, ← hrecord]
      exact Table.lookup_eq_some.mpr (mem_scan.mp hrow)
    have hstored := h.stored row.1 record hget
    unfold RemoteEnrollmentOutboxRecord.message
    cases hresponse : record.response with
    | none =>
      simp only
      split_ifs <;> rfl
    | some response =>
      cases record.installedCredentialId with
      | none => rfl
      | some credentialId =>
        obtain ⟨time, hvalid⟩ := (hstored.answered response hresponse).2
        obtain ⟨identity, hidentity⟩ := identity_of_validate hvalid
        simp only [hidentity, Option.bind_eq_bind, Option.bind_some]
        split_ifs <;> rfl
  unfold nextRemoteEnrollmentMessage
  obtain ⟨scan, hscan⟩ := Option.isSome_iff_exists.mp (@isSome_foldlM env s.process now {} _ hmessage)
  rw [hscan]
  rfl

theorem installed_of_message {requestId : Uuid} {travelId homeId : String}
    {travelSessionId credentialId : Uuid}
    (h : record.message env process =
      some (some (.remoteEnrollmentInstalled requestId travelId travelSessionId credentialId homeId))) :
    record.installedCredentialId.isSome := by
  unfold RemoteEnrollmentOutboxRecord.message at h
  cases hinstalled : record.installedCredentialId with
  | some _ => rfl
  | none =>
    cases hresponse : record.response with
    | some response => simp [hinstalled, hresponse] at h
    | none =>
      simp only [hinstalled, hresponse] at h
      split_ifs at h
      · cases h
      · cases h

/-- A record after a poll is the one before, or the one that was selected. -/
theorem Polled.get (h : Polled env process now outbox outbox' poll due)
    (hrecord' : outbox'.get key = some record') :
    ∃ record, outbox.get key = some record ∧ record.expired now = false ∧
      record' = if due.head?.map Prod.fst = some key then
        { record with lastAttemptUnixSecs := some now } else record := by
  rw [Outbox.get_eq_some, h.lookup, Option.bind_eq_some_iff] at hrecord'
  obtain ⟨value, hvalue, hrecord'⟩ := hrecord'
  cases value with
  | none => cases hrecord'
  | some record =>
    simp only [after, decide_eq_true_eq] at hrecord'
    refine ⟨record, Outbox.get_eq_some.mpr hvalue, ?_⟩
    split_ifs at hrecord' with hexpired hfirst
    · rw [Bool.not_eq_true] at hexpired
      rw [if_pos hfirst]
      exact ⟨hexpired, (Option.some.inj (Option.some.inj hrecord')).symm⟩
    · rw [Bool.not_eq_true] at hexpired
      rw [if_neg hfirst]
      exact ⟨hexpired, (Option.some.inj (Option.some.inj hrecord')).symm⟩

theorem Polled.get_first (h : Polled env process now outbox outbox' poll (first :: rest))
    (hfirst : outbox.get first.1 = some first.2) (hexpired : first.2.expired now = false) :
    outbox'.get first.1 = some { first.2 with lastAttemptUnixSecs := some now } := by
  rw [Outbox.get_eq_some, h.lookup, Outbox.get_eq_some.mp hfirst]
  simp [after, hexpired]

theorem Polled.known (h : Known env s) {session : Option Session}
    (hpolled : Polled env s.process now s.outbox outbox' poll due) :
    Known env { s with outbox := outbox', session } := by
  refine @Known.grown _ _ _ h s.generation session ?_
  intro key record' hrecord'
  obtain ⟨record, hrecord, -, heq⟩ := hpolled.get hrecord'
  have hstored := h.stored key record hrecord
  refine ⟨record, hrecord, ?_⟩
  split_ifs at heq with hfirst
  · rw [heq]
    exact ⟨⟨rfl, id, id⟩, ⟨hstored.requestId, hstored.submitted, hstored.answered⟩⟩
  · rw [heq]
    exact ⟨.refl record, hstored⟩

/-- What is sent for a stored record keeps what is known. -/
theorem Known.note (h : Known env s) (hrecord : s.outbox.get first.1 = some record)
    (hrequest : record.request = first.2.request)
    (hinstalled : record.installedCredentialId = first.2.installedCredentialId)
    (hmessage : first.2.message env process = some (some message)) :
    Known env (s.note message first rest) := by
  have hsubmitted : ∀ request ∈ (s.note message first rest).submitted,
      request = record.request ∨ request ∈ s.submitted := by
    intro request hmem
    cases message with
    | travelEnrollmentSubmit =>
      rcases List.mem_cons.mp hmem with heq | hold
      · exact .inl (heq.trans hrequest.symm)
      · exact .inr hold
    | _ => exact .inr hmem
  have hsub : ∀ request ∈ s.submitted, request ∈ (s.note message first rest).submitted := by
    intro request hmem
    cases message with
    | travelEnrollmentSubmit => exact List.mem_cons_of_mem _ hmem
    | _ => exact hmem
  have hconfirmed : ∀ key ∈ (s.note message first rest).confirmed,
      key ∈ s.confirmed ∨ key = first.1 ∧ record.installedCredentialId.isSome := by
    intro key hmem
    cases message with
    | remoteEnrollmentInstalled =>
      rcases List.mem_cons.mp hmem with heq | hold
      · rw [hinstalled]
        exact .inr ⟨heq, installed_of_message hmessage⟩
      · exact .inl hold
    | _ => exact .inl hmem
  have hsubConfirmed : ∀ key ∈ s.confirmed, key ∈ (s.note message first rest).confirmed := by
    intro key hmem
    cases message with
    | remoteEnrollmentInstalled => exact List.mem_cons_of_mem _ hmem
    | _ => exact hmem
  have hid := (h.stored first.1 record hrecord).requestId
  have hstored : ∀ key other, Stored env s.submitted key other →
      (key = first.1 → record.request = other.request) →
      Stored env (s.note message first rest).submitted key other := by
    intro key other hother hsame
    refine ⟨hother.requestId, ?_, hother.answered⟩
    intro request hmem hkey
    rcases hsubmitted request hmem with heq | hold
    · rw [heq]
      apply hsame
      rw [← hkey, heq, hid]
    · exact hother.submitted request hold hkey
  constructor
  · intro key other hother
    apply hstored key other (h.stored key other hother)
    intro hkey
    subst hkey
    change s.outbox.get first.1 = some other at hother
    rw [hrecord] at hother
    rw [Option.some.inj hother]
  · intro key hmem other hother
    change s.outbox.get key = some other at hother
    rcases hconfirmed key hmem with hold | ⟨hkey, hsome⟩
    · exact h.confirmed key hold other hother
    · rw [hkey, hrecord] at hother
      rw [← Option.some.inj hother]
      exact hsome
  · intro key copy hcopy
    have hold := h.copied key copy hcopy
    refine ⟨hstored key copy hold.1 ?_, hold.2.1, hold.2.2⟩
    intro hkey
    subst hkey
    exact hold.2.2 record hrecord
  · intro delivery hdelivery
    rcases h.requested delivery hdelivery with hold | hold
    · exact .inl (hsubConfirmed _ hold)
    · obtain ⟨request, hmem, heq⟩ := List.mem_map.mp hold
      exact .inr (List.mem_map.mpr ⟨request, hsub request hmem, heq⟩)
  · exact h.answered
  · exact h.acknowledged

theorem mem_due (hmem : (key, record) ∈ s.due env now) :
    s.outbox.get key = some record ∧ record.due env s.process now = true := by
  have hrow := mem_dueRecords.mp hmem
  exact ⟨Outbox.get_eq_some.mpr (Table.lookup_eq_some.mpr (mem_scan.mp hrow.1)), hrow.2⟩

theorem nodup_due : ((s.due env now).map Prod.fst).Nodup := by
  have hsub : ((s.due env now).map Prod.fst).Sublist (s.outbox.scan.map (·.1)) := by
    apply Keyed.sublist_map_filterMap
    intro row hrow entry hentry
    obtain ⟨record, -, rfl⟩ := Option.map_eq_some_iff.mp hentry
    rfl
  exact hsub.nodup nodup_scan

/-- A record that is due was not attempted within the last ten seconds. -/
theorem attempt_of_due (h : record.due env process now = true) {attempt : ℕ}
    (hattempt : record.lastAttemptUnixSecs = some attempt) : attempt + 10 ≤ now := by
  simp only [RemoteEnrollmentOutboxRecord.due, RemoteEnrollmentOutboxRecord.attempted, hattempt,
    Option.any_some, Bool.and_eq_true, Bool.not_eq_true', decide_eq_false_iff_not] at h
  omega

theorem not_expired_of_due (h : record.due env process now = true) : record.expired now = false := by
  simp only [RemoteEnrollmentOutboxRecord.due, Bool.and_eq_true, Bool.not_eq_true'] at h
  exact h.1.1.1

/-- A record that is sent in order has left none of the others behind before. -/
theorem Ordered.not_passed (h : Ordered s) (hdue : s.due env now = first :: rest)
    (horder : s.inOrder (first :: rest) = true) {attempt : ℕ}
    (hattempt : first.2.lastAttemptUnixSecs = some attempt) :
    ∀ other ∈ rest, (other.1, first.1) ∉ s.passed := by
  intro other hother hpassed
  simp only [Sys.inOrder, hattempt, Option.all_some, List.all_eq_true] at horder
  have hbehind := horder other hother
  cases hattempt' : other.2.lastAttemptUnixSecs with
  | none =>
    rw [hattempt'] at hbehind
    simp [hpassed] at hbehind
  | some attempt' =>
    simp only [hattempt', decide_eq_true_eq] at hbehind
    have hfirst := (mem_due (hdue ▸ List.mem_cons_self)).1
    have hsecond := (mem_due (hdue ▸ List.mem_cons_of_mem _ hother)).1
    have hle := h.passed _ hpassed other.2 first.2 hsecond hfirst attempt' attempt hattempt' hattempt
    omega

theorem Ordered.send (h : Ordered s) (hdue : s.due env now = first :: rest)
    (horder : s.inOrder (first :: rest) = true) {session : Option Session}
    (hpolled : Polled env s.process now s.outbox outbox' poll (s.due env now)) :
    Ordered { s.note message first rest with outbox := outbox', session } := by
  have hkeys : ((s.due env now).map Prod.fst).Nodup := nodup_due
  rw [hdue, List.map_cons, List.nodup_cons] at hkeys
  have hfirst := mem_due (hdue ▸ List.mem_cons_self : (first.1, first.2) ∈ s.due env now)
  rw [hdue] at hpolled
  have hnow := hpolled.get_first hfirst.1 (not_expired_of_due hfirst.2)
  have hother : ∀ key record, key ≠ first.1 → outbox'.get key = some record →
      s.outbox.get key = some record := by
    intro key record hne hrecord
    obtain ⟨old, hold, -, heq⟩ := hpolled.get hrecord
    rw [if_neg] at heq
    · rw [heq]
      exact hold
    · simpa using fun hkey : first.1 = key => hne hkey.symm
  constructor
  · intro pair hpair record₁ record₂ hrecord₁ hrecord₂ attempt₁ attempt₂ hattempt₁ hattempt₂
    change pair ∈ (s.passed.filter _) ++ _ at hpair
    have hwaits : pair.1 ∈ rest.map Prod.fst := by
      rcases List.mem_append.mp hpair with hold | hnew
      · simpa using (List.mem_filter.mp hold).2
      · obtain ⟨key, hkey, rfl⟩ := List.mem_map.mp hnew
        exact hkey
    have hne₁ : pair.1 ≠ first.1 := by
      intro heq
      rw [heq] at hwaits
      exact hkeys.1 hwaits
    have hold₁ := hother _ _ hne₁ hrecord₁
    by_cases hsent : pair.2 = first.1
    · change outbox'.get pair.2 = some record₂ at hrecord₂
      rw [hsent, hnow] at hrecord₂
      rw [← Option.some.inj hrecord₂] at hattempt₂
      obtain ⟨other, hmem, heq⟩ := List.mem_map.mp hwaits
      have hduewait := mem_due (hdue ▸ List.mem_cons_of_mem _ hmem :
        (other.1, other.2) ∈ s.due env now)
      rw [heq, hold₁] at hduewait
      have hrecord := Option.some.inj hduewait.1
      rw [← hrecord] at hduewait
      have hle := attempt_of_due hduewait.2 hattempt₁
      have hnow₂ := Option.some.inj hattempt₂
      omega
    · have hpassed : pair ∈ s.passed := by
        rcases List.mem_append.mp hpair with hold | hnew
        · exact (List.mem_filter.mp hold).1
        · obtain ⟨key, hkey, rfl⟩ := List.mem_map.mp hnew
          exact absurd rfl hsent
      exact h.passed pair hpassed record₁ record₂ hold₁ (hother _ _ hsent hrecord₂) attempt₁ attempt₂
        hattempt₁ hattempt₂
  · show (s.overtaken || _) = false
    rw [h.overtaken, Bool.false_or]
    cases hattempt : first.2.lastAttemptUnixSecs with
    | none => rfl
    | some attempt =>
      have hnone := h.not_passed hdue horder hattempt
      rw [Option.isSome_some, Bool.true_and, List.any_eq_false]
      intro key hkey hcontains
      obtain ⟨other, hmem, rfl⟩ := List.mem_map.mp hkey
      exact hnone other hmem (by simpa using hcontains)

theorem Polled.quiet (h : Polled env process now outbox outbox' poll due)
    (hquiet : Quiet env process outbox) : Quiet env process outbox' := by
  intro key record' hrecord'
  obtain ⟨record, hrecord, -, heq⟩ := h.get hrecord'
  have hold := hquiet key record hrecord
  split_ifs at heq
  · rw [heq]
    exact hold
  · rw [heq]
    exact hold

theorem Scanned.polled (h : Scanned env s) {session : Session} {inFlight : Option (Uuid × ℕ)}
    (hsession : s.session = some session)
    (hpolled : Polled env s.process now s.outbox outbox' poll due)
    (hsame : s'.process = s.process ∧ s'.generation = s.generation ∧ s'.outbox = outbox' ∧
      s'.session = some
        { inFlight
          pending := poll.pending
          checkedGeneration := if poll.pending then session.checkedGeneration else s.generation }) :
    Scanned env s' := by
  obtain ⟨hprocess, hgeneration, houtbox, hsession'⟩ := hsame
  have hchecked := h.checked session hsession
  constructor
  · intro session' heq
    rw [hsession'] at heq
    obtain rfl := Option.some.inj heq
    rw [hgeneration]
    show (if poll.pending then session.checkedGeneration else s.generation) ≤ s.generation
    split_ifs
    · exact hchecked
    · exact le_rfl
  · intro session' heq hpending _
    rw [hsession'] at heq
    obtain rfl := Option.some.inj heq
    rw [hprocess, houtbox]
    intro key record hrecord
    exact hpolled.pending hpending key record (Outbox.get_eq_some.mp hrecord)
  · intro hzero
    rw [hprocess, houtbox]
    exact hpolled.quiet (h.initial (hgeneration.symm.trans hzero))

end Poll

section Api
variable {request : TravelEnrollmentRequest} {homeId : String}

theorem Quiet.prune (h : Quiet env process outbox) (now : ℕ) : Quiet env process (outbox.prune now) :=
  fun key record hrecord => h key record (Outbox.get_prune hrecord)

theorem quiet_of_initialGeneration (h : Sys.initialGeneration outbox = 0) :
    Quiet env process outbox := by
  unfold Sys.initialGeneration at h
  split_ifs at h with hempty
  intro key record hrecord
  have hrow := Table.lookup_eq_some.mp (Outbox.get_eq_some.mp hrecord)
  rw [List.isEmpty_iff] at hempty
  rw [hempty] at hrow
  cases hrow

theorem Known.prune (h : Known env s) (now : ℕ) : Known env { s with outbox := s.outbox.prune now } :=
  @Known.grown _ _ _ h s.generation s.session fun key record hrecord =>
    have hold := Outbox.get_prune hrecord
    ⟨record, hold, .refl record, h.stored key record hold⟩

theorem Known.create (h : Known env s) (hinstalling : s.installing = none)
    (hconfirmed : request.requestId ∉ s.confirmed)
    (hsubmitted : request.requestId ∉ s.submitted.map (·.requestId)) (now generation : ℕ) :
    Known env { s with
      outbox := s.outbox.insert request.requestId (some { homeId, request, createdAtUnixSecs := now })
      generation } := by
  have hnew : ∀ delivery ∈ s.delivered, delivery.message.requestId ≠ request.requestId := by
    intro delivery hdelivery heq
    have hrequested := h.requested delivery hdelivery
    rw [heq] at hrequested
    exact hrequested.elim hconfirmed hsubmitted
  constructor
  · intro key record hrecord
    rw [Outbox.get_insert] at hrecord
    split_ifs at hrecord with hkey
    · rw [← Option.some.inj hrecord, hkey]
      refine ⟨rfl, ?_, ?_⟩
      · intro request' hrequest' hid
        exact absurd (List.mem_map.mpr ⟨request', hrequest', hid⟩) hsubmitted
      · intro response hresponse
        cases hresponse
    · exact h.stored key record hrecord
  · intro key hkey record hrecord
    rw [Outbox.get_insert, if_neg] at hrecord
    · exact h.confirmed key hkey record hrecord
    · intro heq
      exact hconfirmed (heq ▸ hkey)
  · intro key copy hcopy
    change s.installing = some (key, copy) at hcopy
    rw [hinstalling] at hcopy
    cases hcopy
  · exact h.requested
  · intro delivery hdelivery key json error hmessage record hrecord
    rw [Outbox.get_insert, if_neg] at hrecord
    · exact h.answered delivery hdelivery key json error hmessage record hrecord
    · intro heq
      have hne := hnew delivery hdelivery
      rw [hmessage] at hne
      exact hne heq
  · intro delivery hdelivery key error hmessage
    show Outbox.get (s.outbox.insert _ _) key = none
    rw [Outbox.get_insert, if_neg]
    · exact h.acknowledged delivery hdelivery key error hmessage
    · intro heq
      have hne := hnew delivery hdelivery
      rw [hmessage] at hne
      exact hne heq

theorem Known.installRead (h : Known env s) (requestId : Uuid) :
    Known env { s with
      installing := ((s.outbox.get requestId).filter (·.response.isSome)).map (requestId, ·) } where
  stored := h.stored
  confirmed := h.confirmed
  copied key copy hcopy := by
    obtain ⟨record, hrecord, heq⟩ := Option.map_eq_some_iff.mp hcopy
    obtain ⟨rfl, rfl⟩ := Prod.mk.inj heq
    have hread := Option.filter_eq_some_iff.mp hrecord
    refine ⟨h.stored _ _ hread.1, hread.2, ?_⟩
    intro other hother
    rw [hread.1] at hother
    rw [Option.some.inj hother]
  requested := h.requested
  answered := h.answered
  acknowledged := h.acknowledged

theorem Known.stopInstalling (h : Known env s) : Known env { s with installing := none } where
  stored := h.stored
  confirmed := h.confirmed
  copied key copy hcopy := by cases hcopy
  requested := h.requested
  answered := h.answered
  acknowledged := h.acknowledged

theorem not_acknowledged (h : s.acknowledged key = false) :
    ∀ delivery ∈ s.delivered, ∀ error,
      delivery.message ≠ .remoteEnrollmentInstalledAck key true error := by
  intro delivery hdelivery error hmessage
  have hnone := List.any_eq_false.mp h delivery hdelivery
  rw [hmessage] at hnone
  simp at hnone

/-- The record of an installation that was not acknowledged. -/
theorem Known.installWrite (h : Known env s) {copy : RemoteEnrollmentOutboxRecord}
    (hcopy : s.installing = some (key, copy)) (hopen : s.acknowledged key = false)
    (hrequest : record'.request = copy.request) (hresponse : record'.response = copy.response)
    (hinstalled : record'.installedCredentialId.isSome) (generation : ℕ) :
    Known env { s with outbox := s.outbox.insert key (some record'), generation } := by
  have hcopied := h.copied key copy hcopy
  constructor
  · intro key' other hother
    rw [Outbox.get_insert] at hother
    split_ifs at hother with hkey
    · obtain rfl := Option.some.inj hother
      subst hkey
      constructor
      · rw [hrequest]
        exact hcopied.1.requestId
      · rw [hrequest]
        exact hcopied.1.submitted
      · rw [hrequest, hresponse]
        exact hcopied.1.answered
    · exact h.stored key' other hother
  · intro key' hconfirmed other hother
    rw [Outbox.get_insert] at hother
    split_ifs at hother with hkey
    · rw [← Option.some.inj hother]
      exact hinstalled
    · exact h.confirmed key' hconfirmed other hother
  · intro key' copy' hcopy'
    have hold := h.copied key' copy' hcopy'
    refine ⟨hold.1, hold.2.1, ?_⟩
    intro other hother
    rw [Outbox.get_insert] at hother
    split_ifs at hother with hkey
    · have hsame : copy = copy' := by
        change s.installing = some (key', copy') at hcopy'
        rw [hcopy] at hcopy'
        exact (Prod.mk.inj (Option.some.inj hcopy')).2
      rw [← Option.some.inj hother, hrequest, hsame]
    · exact hold.2.2 other hother
  · exact h.requested
  · intro delivery hdelivery key' json error hmessage other hother
    rw [Outbox.get_insert] at hother
    split_ifs at hother with hkey
    · rw [← Option.some.inj hother, hresponse]
      exact hcopied.2.1
    · exact h.answered delivery hdelivery key' json error hmessage other hother
  · intro delivery hdelivery key' error hmessage
    show Outbox.get (s.outbox.insert _ _) key' = none
    rw [Outbox.get_insert, if_neg]
    · exact h.acknowledged delivery hdelivery key' error hmessage
    · intro hkey
      rw [hkey] at hmessage
      exact not_acknowledged hopen delivery hdelivery error hmessage

/-- What changes the outbox marks it as changed. -/
theorem Scanned.mark (h : Scanned env s) (outbox : Outbox)
    (installing : Option (Uuid × RemoteEnrollmentOutboxRecord)) :
    Scanned env { s with outbox, installing, generation := s.generation + 1 } := by
  constructor
  · intro session hsession
    have hchecked := h.checked session hsession
    show session.checkedGeneration ≤ s.generation + 1
    omega
  · intro session hsession hpending hgeneration
    have hchecked := h.checked session hsession
    change session.checkedGeneration = s.generation + 1 at hgeneration
    omega
  · intro hgeneration
    change s.generation + 1 = 0 at hgeneration
    omega

end Api

end FlowSplice.EnrollmentOutbox
