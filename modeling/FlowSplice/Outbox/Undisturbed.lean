import FlowSplice.Issuance.HomeBinding
import FlowSplice.Outbox.Known

/-! When enrollment messages leave a session undisturbed, in every run of a Travel. -/
namespace FlowSplice.EnrollmentOutbox
variable {env : Env} {process : Process} {now : ℕ} {outbox : Outbox}
  {record : RemoteEnrollmentOutboxRecord} {message : ControlMessage} {key : Uuid} {s s' : Sys}

/-- Enrollment messages have ended no session, a message that was delivered again has changed
nothing, what waits is polled for, and no record was sent twice while another one waited. -/
structure Undisturbed (env : Env) (s : Sys) : Prop where
  running : s.ended = false
  repeated : s.delivered.Pairwise fun first again =>
    first.message = again.message → again.after = again.before
  polled : ∀ session, s.session = some session → ∀ key record, s.outbox.get key = some record →
    record.Waits env s.process →
    enrollmentOutboxScanNeeded session.pending s.generation session.checkedGeneration false = true
  inOrder : s.overtaken = false

/-- What holds in every state of a run. -/
structure Inv (env : Env) (s : Sys) : Prop where
  known : Known env s
  scanned : Scanned env s
  ordered : Ordered s
  running : s.ended = false
  repeated : s.delivered.Pairwise fun first again =>
    first.message = again.message → again.after = again.before

theorem Inv.undisturbed (h : Inv env s) : Undisturbed env s where
  running := h.running
  repeated := h.repeated
  inOrder := h.ordered.overtaken
  polled session hsession key record hrecord hwaits := by
    by_contra hneeded
    simp only [enrollmentOutboxScanNeeded, Bool.not_false, Bool.true_and, Bool.or_eq_true,
      bne_iff_ne, ne_eq, not_or, Bool.not_eq_true, not_not] at hneeded
    exact h.scanned.quiet session hsession hneeded.1 hneeded.2.symm key record hrecord hwaits

/-- A step that leaves the outbox and what is noted of it alone. -/
theorem Known.session (h : Known env s) (session : Option Session) : Known env { s with session } :=
  @Known.grown _ _ _ h s.generation session fun key record hrecord =>
    ⟨record, hrecord, .refl record, h.stored key record hrecord⟩

theorem Ordered.session (h : Ordered s) (session : Option Session) : Ordered { s with session } :=
  h.keep rfl rfl fun _ record hrecord _ hattempt => ⟨record, hrecord, hattempt⟩

theorem Inv.deliver (h : Inv env s) (hhonest : s.honest env (.deliver message now) = true)
    (htimely : s.timely env (.deliver message now) = true)
    (hstep : s.deliver env message now = some s') : Inv env s' := by
  obtain ⟨session, hsession, heq⟩ := Option.map_eq_some_iff.mp hstep
  obtain ⟨outbox', changed, hreceive, hreceived⟩ := h.known.received hhonest htimely
  rw [hreceive] at heq
  change s.received message session outbox' changed = s' at heq
  subst heq
  refine ⟨h.known.receive hreceived hhonest, h.scanned.receive hsession hreceived, ?_, h.running, ?_⟩
  · refine h.ordered.keep rfl rfl fun key record' hrecord' attempt hattempt => ?_
    obtain ⟨record, hrecord, -, hlast, -⟩ := hreceived.grown hrecord'
    exact ⟨record, hrecord, hlast.symm.trans hattempt⟩
  · apply List.pairwise_append.mpr
    refine ⟨h.repeated, List.pairwise_singleton _ _, ?_⟩
    intro first hfirst again hagain hmessage
    obtain rfl := List.mem_singleton.mp hagain
    exact h.known.repeated hreceived first hfirst hmessage

theorem Inv.create (h : Inv env s) {request : TravelEnrollmentRequest} {homeId : String}
    (hstep : s.create request homeId now = some s') : Inv env s' := by
  unfold Sys.create at hstep
  split at hstep
  · cases hstep
  next hfresh =>
  simp only at hstep
  split_ifs at hstep
  · simp only [not_or, Bool.not_eq_true, Option.isSome_eq_false_iff, Option.isNone_iff_eq_none]
      at hfresh
    obtain ⟨hinstalling, -, hconfirmed, hsubmitted⟩ := hfresh
    obtain rfl := Option.some.inj hstep
    refine ⟨(h.known.prune now).create hinstalling hconfirmed hsubmitted now _, h.scanned.mark _ s.installing, ?_, h.running, h.repeated⟩
    refine h.ordered.keep rfl rfl fun key record' hrecord' attempt hattempt => ?_
    rw [Outbox.get_insert] at hrecord'
    split_ifs at hrecord' with hkey
    · rw [← Option.some.inj hrecord'] at hattempt
      cases hattempt
    · exact ⟨record', Outbox.get_prune hrecord', hattempt⟩
  · obtain rfl := Option.some.inj hstep
    refine ⟨h.known.prune now, ?_, ?_, h.running, h.repeated⟩
    · constructor
      · exact h.scanned.checked
      · intro session hsession hpending hgeneration
        exact (h.scanned.quiet session hsession hpending hgeneration).prune now
      · intro hgeneration
        exact (h.scanned.initial hgeneration).prune now
    · exact h.ordered.keep rfl rfl fun key record' hrecord' attempt hattempt =>
        ⟨record', Outbox.get_prune hrecord', hattempt⟩

theorem Inv.installRead (h : Inv env s) {requestId : Uuid}
    (hstep : s.installRead requestId = some s') : Inv env s' := by
  unfold Sys.installRead at hstep
  split_ifs at hstep
  obtain rfl := Option.some.inj hstep
  refine ⟨h.known.installRead requestId, ⟨h.scanned.checked, h.scanned.quiet, h.scanned.initial⟩, ?_,
    h.running, h.repeated⟩
  exact h.ordered.keep rfl rfl fun _ record hrecord _ hattempt => ⟨record, hrecord, hattempt⟩

theorem Inv.installWrite (h : Inv env s) {ok : Bool} {installedAt : ℕ}
    (htimely : s.timely env (.installWrite ok now installedAt) = true)
    (hstep : s.installWrite env ok now installedAt = some s') : Inv env s' := by
  obtain ⟨⟨key, copy⟩, hcopy, heq⟩ := Option.map_eq_some_iff.mp hstep
  simp only at heq
  split at heq
  · subst heq
    refine ⟨h.known.stopInstalling, ⟨h.scanned.checked, h.scanned.quiet, h.scanned.initial⟩, ?_,
      h.running, h.repeated⟩
    exact h.ordered.keep rfl rfl fun _ record hrecord _ hattempt => ⟨record, hrecord, hattempt⟩
  · next credential trust hvalid =>
    have hok := (Option.filter_eq_some_iff.mp hvalid).2
    simp only [hok, Sys.timely, hcopy, Option.all_some] at htimely
    rw [Bool.not_eq_true'] at htimely
    subst heq
    refine ⟨?_, h.scanned.mark _ none, ?_, h.running, h.repeated⟩
    · let record' : RemoteEnrollmentOutboxRecord := { copy with
        restartRequired := true
        installedCredentialId := some credential.credentialId
        installedAtUnixSecs := some installedAt
        lastAttemptUnixSecs := none }
      have hrequest : record'.request = copy.request := rfl
      have hresponse : record'.response = copy.response := rfl
      have hinstalled : record'.installedCredentialId.isSome := rfl
      have hknown := h.known.installWrite hcopy htimely hrequest hresponse hinstalled
        (s.generation + 1)
      exact hknown.stopInstalling
    · refine h.ordered.keep rfl rfl fun key' record' hrecord' attempt hattempt => ?_
      rw [Outbox.get_insert] at hrecord'
      split_ifs at hrecord' with hkey
      · rw [← Option.some.inj hrecord'] at hattempt
        cases hattempt
      · exact ⟨record', hrecord', hattempt⟩

theorem Inv.restart (h : Inv env s) (process : Process) : Inv env (s.restart process) := by
  refine ⟨h.known.stopInstalling.session none |> fun hknown => ?_, ?_, ?_, h.running, h.repeated⟩
  · exact ⟨hknown.stored, hknown.confirmed, hknown.copied, hknown.requested, hknown.answered,
      hknown.acknowledged⟩
  · constructor
    · intro session hsession
      cases hsession
    · intro session hsession
      cases hsession
    · exact quiet_of_initialGeneration
  · exact h.ordered.keep rfl rfl fun _ record hrecord _ hattempt => ⟨record, hrecord, hattempt⟩

theorem Inv.connect (h : Inv env s) (hstep : s.connect = some s') : Inv env s' := by
  unfold Sys.connect at hstep
  split at hstep
  · cases hstep
  · obtain rfl := Option.some.inj hstep
    refine ⟨h.known.session _, ?_, h.ordered.session _, h.running, h.repeated⟩
    constructor
    · intro session hsession
      obtain rfl := Option.some.inj hsession
      exact Nat.zero_le _
    · intro session hsession hpending hgeneration
      obtain rfl := Option.some.inj hsession
      exact h.scanned.initial hgeneration.symm
    · exact h.scanned.initial

theorem Inv.disconnect (h : Inv env s) (hstep : s.disconnect = some s') : Inv env s' := by
  obtain ⟨session, -, rfl⟩ := Option.map_eq_some_iff.mp hstep
  refine ⟨h.known.session _, ?_, h.ordered.session _, h.running, h.repeated⟩
  constructor
  · intro session hsession
    cases hsession
  · intro session hsession
    cases hsession
  · exact h.scanned.initial

theorem Inv.poll (h : Inv env s) {session : Session} {instant : ℕ}
    (hsession : s.session = some session)
    (htimely : s.timely env (.tick instant now) = true) :
    Inv env (s.poll env session instant now) := by
  simp only [Sys.timely, hsession, Option.all_some, Bool.or_eq_true, Bool.not_eq_true'] at htimely
  obtain ⟨⟨outbox', poll⟩, hnext⟩ := Option.isSome_iff_exists.mp (h.known.next_isSome now)
  have hpolled := polled_of_next hnext
  change Polled env s.process now s.outbox outbox' poll (s.due env now) at hpolled
  unfold Sys.poll
  simp only [hnext]
  split
  · refine ⟨h.known.session _, ?_, h.ordered.session _, h.running, h.repeated⟩
    constructor
    · intro session' heq
      obtain rfl := Option.some.inj heq
      exact h.scanned.checked session hsession
    · intro session' heq
      obtain rfl := Option.some.inj heq
      exact h.scanned.quiet session hsession
    · exact h.scanned.initial
  next hscans =>
    have horder := htimely.resolve_left (by simpa using hscans)
    have hmessage := hpolled.message
    cases hdue : s.due env now with
    | nil =>
      rw [hdue] at hmessage
      change poll.message = none at hmessage
      simp only [hmessage]
      refine ⟨hpolled.known h.known, h.scanned.polled hsession hpolled ⟨rfl, rfl, rfl, rfl⟩, ?_,
        h.running, h.repeated⟩
      refine h.ordered.keep rfl rfl fun key record' hrecord' attempt hattempt => ?_
      obtain ⟨record, hrecord, -, heq⟩ := hpolled.get hrecord'
      rw [hdue] at heq
      have hsame : record' = record := heq
      rw [hsame] at hattempt
      exact ⟨record, hrecord, hattempt⟩
    | cons first rest =>
      rw [hdue] at hmessage horder
      obtain ⟨message, hfirst, hsome⟩ := hmessage
      simp only [hsome]
      have hmem := mem_due (hdue ▸ List.mem_cons_self : (first.1, first.2) ∈ s.due env now)
      have hget := (hdue ▸ hpolled).get_first hmem.1 (not_expired_of_due hmem.2)
      refine ⟨?_, h.scanned.polled hsession hpolled ⟨rfl, rfl, rfl, rfl⟩,
        h.ordered.send hdue horder hpolled, h.running, h.repeated⟩
      exact Known.note (hpolled.known h.known) hget rfl rfl hfirst

theorem Inv.step (h : Inv env s) {action : Action} (hhonest : s.honest env action = true)
    (htimely : s.timely env action = true) (hstep : s.step env action = some s') : Inv env s' := by
  cases action with
  | restart process =>
    obtain rfl := Option.some.inj hstep
    exact h.restart process
  | connect => exact h.connect hstep
  | disconnect => exact h.disconnect hstep
  | deliver message now => exact h.deliver hhonest htimely hstep
  | tick instant now =>
    obtain ⟨session, hsession, rfl⟩ := Option.map_eq_some_iff.mp hstep
    exact h.poll hsession htimely
  | create request homeId now => exact h.create hstep
  | installRead requestId => exact h.installRead hstep
  | installWrite ok now installedAt => exact h.installWrite htimely hstep

/-- An outbox as this Travel writes it: records are known, and confirmed ones are installed. -/
structure WellFormed (env : Env) (outbox : Outbox) (submitted : List TravelEnrollmentRequest)
    (confirmed : List Uuid) : Prop where
  stored : ∀ key record, outbox.get key = some record → Stored env submitted key record
  confirmed : ∀ key ∈ confirmed, ∀ record, outbox.get key = some record →
    record.installedCredentialId.isSome

/-- In every run in which responses and acknowledgements of an honest Server come in time and records
are sent in order, enrollment messages disturb no session. -/
theorem undisturbed_of_timely {submitted : List TravelEnrollmentRequest} {confirmed : List Uuid}
    (hstart : WellFormed env outbox submitted confirmed)
    (h : (machine env process outbox submitted confirmed).ReachableWhere
      (fun s action => s.honest env action = true ∧ s.timely env action = true) s) :
    Undisturbed env s := by
  refine Inv.undisturbed (h.invariant ?_ ?_)
  · refine ⟨?_, ?_, ?_, rfl, List.Pairwise.nil⟩
    · constructor
      · exact hstart.stored
      · exact hstart.confirmed
      · intro key copy hcopy
        cases hcopy
      · intro delivery hdelivery
        cases hdelivery
      · intro delivery hdelivery
        cases hdelivery
      · intro delivery hdelivery
        cases hdelivery
    · constructor
      · intro session hsession
        cases hsession
      · intro session hsession
        cases hsession
      · exact quiet_of_initialGeneration
    · constructor
      · intro pair hpair
        cases hpair
      · rfl
  · intro t action t' _ ht hok hstep
    exact ht.step hok.1 hok.2 hstep

/-! A Travel with the request of the sample response, and one with two such requests. -/

def sampleEnv : Env where
  codec := sampleEnrollmentCodec
  deploymentRootPublicKey := sampleKey 'a'
  travelId := "travel-1"
  firstCertificate := some
  firstCertificate_eq _ _ h := h
  encode request := [UInt8.ofNat request.requestId]
  decode json := if json = [1] then some sampleFirstResponse.response else none
  answer request :=
    if request = sampleFirstResponse.response.approval.request then some sampleFirstResponse.response
    else none
  answer_request request response h := by
    split_ifs at h with hrequest
    rw [hrequest, ← Option.some.inj h]

def sampleRecord (requestId : ℕ) : RemoteEnrollmentOutboxRecord where
  homeId := "home-1"
  request := (sampleClassRequest requestId).request
  createdAtUnixSecs := 900

def sampleOutbox : Outbox := AList.insert 1 (some (sampleRecord 1)) ∅

def sampleMachine (outbox : Outbox) : Machine Sys Action :=
  machine sampleEnv ⟨"", 1⟩ outbox [] []

def sampleResult (responseJson : Option (List UInt8)) (now : ℕ) : Action :=
  .deliver (.remoteEnrollmentResult 1 true responseJson none) now

/-- The request is submitted twice and its response delivered twice; it is installed. -/
def installed : List Action :=
  [.connect, .tick 0 1000, sampleResult none 1000, .tick 15000 1015, sampleResult (some [1]) 1015,
    sampleResult (some [1]) 1015, .installRead 1, .installWrite true 1020 1020,
    .restart ⟨sampleEnrollmentCodec.sha256 "11", 2⟩, .connect, .tick 30000 1030]

def sampleAcknowledgement (now : ℕ) : Action :=
  .deliver (.remoteEnrollmentInstalledAck 1 true none) now

theorem wellFormed_sampleOutbox : WellFormed sampleEnv sampleOutbox [] [] where
  stored key record h := by
    rw [sampleOutbox, Outbox.get_insert] at h
    split_ifs at h with hkey
    · rw [← Option.some.inj h, hkey]
      refine ⟨rfl, by simp, ?_⟩
      intro response hresponse
      cases hresponse
    · cases h
  confirmed key hkey := by cases hkey

theorem undisturbed_of_timely_installed :
    ∃ s, (sampleMachine sampleOutbox).execWhere
        (fun s action => s.honest sampleEnv action = true ∧ s.timely sampleEnv action = true)
        (installed ++ [sampleAcknowledgement 1040]) = some s ∧
      s.delivered.length = 4 ∧ s.confirmed = [1] ∧ Undisturbed sampleEnv s := by
  have hrun : ((sampleMachine sampleOutbox).execWhere
      (fun s action => s.honest sampleEnv action = true ∧ s.timely sampleEnv action = true)
      (installed ++ [sampleAcknowledgement 1040])).map
        (fun s => (s.delivered.length, s.confirmed)) = some (4, [1]) := by
    decide +kernel
  obtain ⟨s, hs, hends⟩ := Option.map_eq_some_iff.mp hrun
  have hends := Prod.mk.inj hends
  exact ⟨s, hs, hends.1, hends.2,
    undisturbed_of_timely wellFormed_sampleOutbox (Machine.reachableWhere_of_execWhere hs)⟩

/-- The Server acknowledges the installation twice. -/
def acknowledgedTwice : List Action :=
  installed ++ [sampleAcknowledgement 1040, sampleAcknowledgement 1050]

/-- The response comes when the credential has expired. -/
def answeredLate : List Action := [.connect, .tick 0 1000, sampleResult (some [1]) 6000]

/-- Nothing answers to the first of two requests. -/
def unanswered : List Action := [.connect, .tick 0 1000, .tick 35000 1035, .tick 70000 1070]

/-- A session ends over an acknowledgement that comes again and over a response that is no longer
valid; and a request that is not answered is sent again and again while another one waits. -/
theorem not_undisturbed_of_honest :
    ((sampleMachine sampleOutbox).execWhere (fun s action => s.honest sampleEnv action = true)
      acknowledgedTwice).map (·.ended) = some true ∧
    ((sampleMachine sampleOutbox).execWhere (fun s action => s.honest sampleEnv action = true)
      answeredLate).map (·.ended) = some true ∧
    ((sampleMachine (sampleOutbox.insert 2 (some (sampleRecord 2)))).execWhere
      (fun s action => s.honest sampleEnv action = true) unanswered).map
        (fun s => (s.overtaken, s.submitted.map (·.requestId))) = some (true, [1, 1, 1]) ∧
    ¬ ∀ s, (sampleMachine sampleOutbox).ReachableWhere
      (fun s action => s.honest sampleEnv action = true) s → Undisturbed sampleEnv s := by
  have hrun : ((sampleMachine sampleOutbox).execWhere
      (fun s action => s.honest sampleEnv action = true) acknowledgedTwice).map (·.ended) =
      some true := by
    decide +kernel
  refine ⟨hrun, by decide +kernel, by decide +kernel, fun hall => ?_⟩
  obtain ⟨s, hs, hended⟩ := Option.map_eq_some_iff.mp hrun
  have hrunning := (hall s (Machine.reachableWhere_of_execWhere hs)).running
  rw [hended] at hrunning
  cases hrunning

end FlowSplice.EnrollmentOutbox
