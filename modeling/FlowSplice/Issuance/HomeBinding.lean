import FlowSplice.Issuance.Binding

/-! What a directed response for a Home binds, and what may not be spliced into any directed
response. -/
namespace FlowSplice
variable {codec : EnrollmentCodec} {root : String} {now : ℕ} {trust : DeploymentTrust}
  {endpoint : HomeEndpointCredential}

/-- The payload of an endpoint credential that verifies. -/
theorem SignedHomeEndpointCredential.payload_of_verifyTrustBinding {codec : Codec}
    {signed : SignedHomeEndpointCredential}
    (h : signed.verifyTrustBinding codec trust = some endpoint) :
    codec.endpoint signed.payloadHex = some endpoint ∧
      endpoint.validateTrustBinding trust = true := by
  unfold verifyTrustBinding at h
  split_ifs at h with hsize
  obtain ⟨hpayload, hvalid⟩ := Option.filter_eq_some_iff.mp h
  rw [Bool.and_eq_true, Bool.and_eq_true] at hvalid
  exact ⟨hpayload, hvalid.1.1⟩

theorem SignedHomeEndpointCredential.verifyTrustBinding_spec {codec : Codec}
    {signed : SignedHomeEndpointCredential}
    (h : signed.verifyTrustBinding codec trust = some endpoint) :
    codec.endpoint signed.payloadHex = some endpoint ∧
      trust.notBeforeUnixSecs ≤ endpoint.notBeforeUnixSecs ∧
      endpoint.notAfterUnixSecs ≤ trust.notAfterUnixSecs := by
  obtain ⟨hpayload, hvalid⟩ := payload_of_verifyTrustBinding h
  simp only [HomeEndpointCredential.validateTrustBinding, Bool.and_eq_true,
    decide_eq_true_eq] at hvalid
  exact ⟨hpayload, hvalid.1.2, hvalid.2⟩

theorem SignedHomeEndpointCredential.deploymentId_of_verify {codec : Codec}
    {signed : SignedHomeEndpointCredential}
    (h : signed.verify codec trust now = some endpoint) :
    endpoint.deploymentId = trust.deploymentId := by
  have hbinding := (Option.filter_eq_some_iff.mp h).1
  have hvalid := (payload_of_verifyTrustBinding hbinding).2
  simp only [HomeEndpointCredential.validateTrustBinding, Bool.and_eq_true, beq_iff_eq] at hvalid
  exact hvalid.1.1.2

theorem SignedDeploymentTrust.payload_of_verify {codec : Codec} {signed : SignedDeploymentTrust}
    (h : signed.verify codec root now = some trust) :
    codec.trust signed.payloadHex = some trust := by
  simp only [verify, Option.bind_eq_bind, Option.bind_eq_some_iff, Option.filter_eq_some_iff] at h
  obtain ⟨-, -, hpayload, -⟩ := h
  exact hpayload

/-- What `validate_home_enrollment_response` found in a response that it accepts. -/
structure HomeEnrollmentResponse.Accepted (codec : EnrollmentCodec) (root : String) (now : ℕ)
    (response : HomeEnrollmentResponse) (endpoint : HomeEndpointCredential)
    (trust : DeploymentTrust) : Prop where
  version : response.approval.version = homeEnrollmentVersion
  trusted : response.deploymentTrust.verify codec.toCodec root now = some trust
  verified : response.signedEndpointCredential.verify codec.toCodec trust now = some endpoint
  credentialId : endpoint.credentialId = response.approval.credentialId
  authorityId : endpoint.authorityId = response.approval.authorityId
  requestId : endpoint.enrollmentRequestId = response.approval.request.requestId
  homeId : endpoint.homeId = response.approval.request.homeId
  managementKey : ∃ csr, codec.csr response.approval.request.managementCsrPem = some csr ∧
    endpoint.managementSpkiSha256 = codec.sha256 csr.publicKeyInfo
  businessKey : ∃ csr, codec.csr response.approval.request.businessCsrPem = some csr ∧
    endpoint.businessSpkiSha256 = codec.sha256 csr.publicKeyInfo
  notBefore : endpoint.notBeforeUnixSecs = response.approval.notBeforeUnixSecs
  notAfter : endpoint.notAfterUnixSecs = response.approval.notAfterUnixSecs
  managementCertificate : codec.Certifies response.managementCertificatePem
    (codec.managementCaPem response.deploymentTrust.payloadHex)
    ⟨.home, endpoint.homeId, endpoint.managementSpkiSha256, endpoint.notBeforeUnixSecs,
      endpoint.notAfterUnixSecs⟩ now
  businessCertificate : codec.Certifies response.businessCertificatePem
    (codec.businessCaPem response.deploymentTrust.payloadHex)
    ⟨.home, endpoint.homeId, endpoint.businessSpkiSha256, endpoint.notBeforeUnixSecs,
      endpoint.notAfterUnixSecs⟩ now

theorem HomeEnrollmentResponse.accepted_of_validate {response : HomeEnrollmentResponse}
    (h : validateHomeEnrollmentResponse codec response root now = some (endpoint, trust)) :
    response.Accepted codec root now endpoint trust := by
  simp only [validateHomeEnrollmentResponse, Option.bind_eq_bind, Option.bind_eq_some_iff,
    Option.pure_def, Option.some.injEq, Prod.mk.injEq, ensure_eq_some, Bool.and_eq_true,
    beq_iff_eq] at h
  obtain ⟨_, hversion, ⟨management, business⟩, hparsed, _, -, trust', htrust, endpoint', hendpoint,
    _, hmatches, managementCertificate, hmanagementPem, businessCertificate, hbusinessPem, _,
    ⟨hmanages, hserves⟩, rfl, rfl⟩ := h
  simp only [parseHomeEnrollmentRequest, Option.bind_eq_bind, Option.bind_eq_some_iff] at hparsed
  obtain ⟨-, -, hparsed⟩ := hparsed
  have hcsr := csr_of_parseRequest hparsed
  obtain ⟨⟨⟨⟨⟨⟨⟨⟨hid, hauthority⟩, hrequest⟩, hhome⟩, hmanagement⟩, hbusiness⟩, hbefore⟩, hafter⟩, -⟩ :=
    hmatches
  exact
    { version := hversion.2
      trusted := htrust
      verified := hendpoint
      credentialId := hid
      authorityId := hauthority
      requestId := hrequest
      homeId := hhome
      managementKey := ⟨management, hcsr.1, hmanagement⟩
      businessKey := ⟨business, hcsr.2, hbusiness⟩
      notBefore := hbefore
      notAfter := hafter
      managementCertificate := certifies_of_validate hmanagementPem hmanages
      businessCertificate := certifies_of_validate hbusinessPem hserves }

/-- A signed grant with its payload and the authority that signed it, for one endpoint. -/
structure SignedHomeServiceGrant.Grants (codec : Codec) (signed : SignedHomeServiceGrant)
    (trust : DeploymentTrust) (endpoint : SignedHomeEndpointCredential)
    (endpointPayload : HomeEndpointCredential) (grant : HomeServiceGrant)
    (authority : TrustedHomeEnrollmentAuthority) : Prop where
  decoded : codec.grant signed.payloadHex = some grant
  trusted : trust.homeEnrollmentAuthority grant.authorityId grant.authorityEpoch = some authority
  signature : codec.verifies authority.publicKey signed.payloadHex signed.signatureHex = true
  homeId : grant.homeId = endpointPayload.homeId
  authorityId : grant.authorityId = endpointPayload.authorityId
  authorityEpoch : grant.authorityEpoch = endpointPayload.authorityEpoch
  endpointDigest : grant.endpointPayloadSha256 = codec.sha256 endpoint.payloadHex
  delegates : endpointPayload.delegatedTravelAuthorities = []
  notBefore : endpointPayload.notBeforeUnixSecs ≤ grant.notBeforeUnixSecs
  notAfter : grant.notAfterUnixSecs ≤ endpointPayload.notAfterUnixSecs

theorem SignedHomeServiceGrant.exists_grants {codec : Codec} {signed : SignedHomeServiceGrant}
    {signedEndpoint : SignedHomeEndpointCredential} {grant : HomeServiceGrant}
    (h : signed.verify codec trust signedEndpoint now = some grant)
    (hendpoint : signedEndpoint.verify codec trust now = some endpoint) :
    ∃ authority, signed.Grants codec trust signedEndpoint endpoint grant authority := by
  obtain ⟨_, -, h⟩ := Option.bind_eq_some_iff.mp h
  have hbinding := (Option.filter_eq_some_iff.mp h).1
  have hendpoint' := (Option.filter_eq_some_iff.mp hendpoint).1
  unfold verifyBinding at hbinding
  rw [hendpoint'] at hbinding
  obtain ⟨hpayload, hok⟩ := Option.filter_eq_some_iff.mp hbinding
  simp only [Bool.and_eq_true, beq_iff_eq, decide_eq_true_eq, List.isEmpty_iff,
    Option.any_eq_true] at hok
  obtain ⟨⟨⟨⟨⟨⟨⟨⟨⟨⟨⟨⟨-, -⟩, hhome⟩, hauthority⟩, hepoch⟩, -⟩, hdigest⟩, hdelegates⟩, -⟩, hbefore⟩,
    hafter⟩, -⟩, authority, htrusted, -, hsignature⟩ := hok
  exact ⟨authority,
    { decoded := hpayload
      trusted := htrusted
      signature := hsignature
      homeId := hhome
      authorityId := hauthority
      authorityEpoch := hepoch
      endpointDigest := hdigest
      delegates := hdelegates
      notBefore := hbefore
      notAfter := hafter }⟩

namespace BusinessHomeResponse

/-- What a directed response for a Home binds: the request that was made, its two keys and their
certificates, the deployment, an endpoint that issues nothing, and some of the services asked for,
covered by the grant of a trusted authority. -/
structure Bound (codec : EnrollmentCodec) (root : String) (now : ℕ) (r : BusinessHomeResponse)
    (trust : DeploymentTrust) (endpoint : HomeEndpointCredential) (grant : HomeServiceGrant) :
    Prop where
  innerRequest : r.response.approval.request = r.request.request
  profile : r.response.approval.profile = .servingOnly
  issuerBundle : r.response.issuerBundle = none
  accepted : r.response.Accepted codec root now endpoint trust
  granted : ∃ authority, r.grant.Grants codec.toCodec trust
    r.response.signedEndpointCredential endpoint grant authority
  requestDigest : payloadDigest codec (codec.businessHomeRequestJson r.request) =
    some grant.enrollmentRequestSha256
  services : grant.services ⊆ r.request.services
  deploymentId : endpoint.deploymentId = trust.deploymentId
  notBefore : trust.notBeforeUnixSecs ≤ endpoint.notBeforeUnixSecs
  notAfter : endpoint.notAfterUnixSecs ≤ trust.notAfterUnixSecs

theorem exists_bound {self : BusinessHomeResponse}
    (h : self.validate codec root now = some trust) :
    ∃ endpoint grant, self.Bound codec root now trust endpoint grant := by
  simp only [validate, Option.bind_eq_bind, Option.bind_eq_some_iff, Option.pure_def,
    Option.some.injEq, ensure_eq_some, Bool.and_eq_true, beq_iff_eq] at h
  obtain ⟨_, ⟨⟨⟨-, hrequest⟩, hprofile⟩, hbundle⟩, ⟨endpoint, trust'⟩, hresponse, grant, hgrant,
    requestSha256, hdigest, _, ⟨hcovers, hsubset⟩, rfl⟩ := h
  have haccepted := HomeEnrollmentResponse.accepted_of_validate hresponse
  have hbinding := SignedHomeEndpointCredential.verifyTrustBinding_spec
    (Option.filter_eq_some_iff.mp haccepted.verified).1
  simp only [validateSubset, Bool.and_eq_true, List.all_eq_true,
    List.contains_iff_mem] at hsubset
  exact ⟨endpoint, grant,
    { innerRequest := hrequest
      profile := hprofile
      issuerBundle := Option.isNone_iff_eq_none.mp hbundle
      accepted := haccepted
      granted := SignedHomeServiceGrant.exists_grants hgrant haccepted.verified
      requestDigest := by rw [hcovers, hdigest]
      services := hsubset.2
      deploymentId := SignedHomeEndpointCredential.deploymentId_of_verify haccepted.verified
      notBefore := hbinding.2.1
      notAfter := hbinding.2.2 }⟩

/-- What the grant covers of a response: of the trust document its deployment, and of each
certificate what it certifies. -/
structure Content where
  request : BusinessHomeRequest
  approval : HomeEnrollmentApproval
  endpoint : Option HomeEndpointCredential
  grant : Option HomeServiceGrant
  issuerBundle : Option HomeIssuerBundle
  deploymentId : Option String
  managementCertificate : Option Certified
  businessCertificate : Option Certified

def content (codec : EnrollmentCodec) (self : BusinessHomeResponse) : Content where
  request := self.request
  approval := self.response.approval
  endpoint := codec.endpoint self.response.signedEndpointCredential.payloadHex
  grant := codec.grant self.grant.payloadHex
  issuerBundle := self.response.issuerBundle
  deploymentId := (codec.trust self.response.deploymentTrust.payloadHex).map (·.deploymentId)
  managementCertificate := codec.certified self.response.managementCertificatePem
  businessCertificate := codec.certified self.response.businessCertificatePem

/-- SHA-256 has no collision between what is digested of two responses. -/
def NoCollision (codec : EnrollmentCodec) (r r' : BusinessHomeResponse) : Prop :=
  (codec.sha256 (codec.businessHomeRequestJson r.request) =
    codec.sha256 (codec.businessHomeRequestJson r'.request) → r.request = r'.request) ∧
  (codec.sha256 r.response.signedEndpointCredential.payloadHex =
    codec.sha256 r'.response.signedEndpointCredential.payloadHex →
    codec.endpoint r.response.signedEndpointCredential.payloadHex =
      codec.endpoint r'.response.signedEndpointCredential.payloadHex)

/-- Two responses that validate and carry one grant payload have the same content. -/
theorem content_eq {r r' : BusinessHomeResponse} {root' : String} {now' : ℕ}
    (h : (r.validate codec root now).isSome) (h' : (r'.validate codec root' now').isSome)
    (hfree : r.NoCollision codec r') (hseal : codec.grant r.grant.payloadHex =
      codec.grant r'.grant.payloadHex) : r.content codec = r'.content codec := by
  obtain ⟨trust, hvalid⟩ := Option.isSome_iff_exists.mp h
  obtain ⟨trust', hvalid'⟩ := Option.isSome_iff_exists.mp h'
  obtain ⟨endpoint, grant, hbound⟩ := exists_bound hvalid
  obtain ⟨endpoint', grant', hbound'⟩ := exists_bound hvalid'
  obtain ⟨authority, hgrants⟩ := hbound.granted
  obtain ⟨authority', hgrants'⟩ := hbound'.granted
  have hgrant : grant = grant' := by
    have hsome := hseal
    rw [hgrants.decoded, hgrants'.decoded] at hsome
    exact Option.some.inj hsome
  subst hgrant
  have hrequest : r.request = r'.request := by
    apply hfree.1
    rw [← payloadDigest_eq_some hbound.requestDigest, payloadDigest_eq_some hbound'.requestDigest]
  have hpayload := hfree.2 (hgrants.endpointDigest.symm.trans hgrants'.endpointDigest)
  have haccepted := hbound.accepted
  have haccepted' := hbound'.accepted
  have hendpoint : endpoint = endpoint' := by
    have hdecoded := SignedHomeEndpointCredential.verifyTrustBinding_spec
      (Option.filter_eq_some_iff.mp haccepted.verified).1
    have hdecoded' := SignedHomeEndpointCredential.verifyTrustBinding_spec
      (Option.filter_eq_some_iff.mp haccepted'.verified).1
    have hsome := hpayload
    rw [hdecoded.1, hdecoded'.1] at hsome
    exact Option.some.inj hsome
  subst hendpoint
  have happroval : r.response.approval = r'.response.approval := by
    have hinner : r.response.approval.request = r'.response.approval.request := by
      rw [hbound.innerRequest, hbound'.innerRequest, hrequest]
    have hversion := haccepted.version.trans haccepted'.version.symm
    have hid := haccepted.credentialId.symm.trans haccepted'.credentialId
    have hauthority := haccepted.authorityId.symm.trans haccepted'.authorityId
    have hprofile := hbound.profile.trans hbound'.profile.symm
    have hbefore := haccepted.notBefore.symm.trans haccepted'.notBefore
    have hafter := haccepted.notAfter.symm.trans haccepted'.notAfter
    cases hr : r.response.approval
    cases hr' : r'.response.approval
    rw [hr, hr'] at hinner hversion hid hauthority hprofile hbefore hafter
    simp only [HomeEnrollmentApproval.mk.injEq]
    exact ⟨hversion, hid, hauthority, hprofile, hinner, hbefore, hafter⟩
  have hdeployment : (codec.trust r.response.deploymentTrust.payloadHex).map (·.deploymentId) =
      (codec.trust r'.response.deploymentTrust.payloadHex).map (·.deploymentId) := by
    rw [SignedDeploymentTrust.payload_of_verify haccepted.trusted,
      SignedDeploymentTrust.payload_of_verify haccepted'.trusted, Option.map_some, Option.map_some,
      ← hbound.deploymentId, ← hbound'.deploymentId]
  have hmanagement := haccepted.managementCertificate.certified.trans
    haccepted'.managementCertificate.certified.symm
  have hbusiness := haccepted.businessCertificate.certified.trans
    haccepted'.businessCertificate.certified.symm
  unfold content
  rw [hrequest, happroval, hpayload, hseal, hbound.issuerBundle, hbound'.issuerBundle, hdeployment,
    hmanagement, hbusiness]

/-- A part of the inner response. -/
inductive ResponsePart where
  | approval
  | deploymentTrust
  | managementCertificatePem
  | businessCertificatePem
  | signedEndpointCredential
  | issuerBundle
deriving DecidableEq, Repr

inductive Component where
  | request
  | innerRequest
  | services
  | response
  | responsePart (part : ResponsePart)
  | grant
deriving DecidableEq, Repr

def spliceResponse (part : ResponsePart) (r r' : HomeEnrollmentResponse) : HomeEnrollmentResponse :=
  match part with
  | .approval => { r with approval := r'.approval }
  | .deploymentTrust => { r with deploymentTrust := r'.deploymentTrust }
  | .managementCertificatePem => { r with managementCertificatePem := r'.managementCertificatePem }
  | .businessCertificatePem => { r with businessCertificatePem := r'.businessCertificatePem }
  | .signedEndpointCredential => { r with signedEndpointCredential := r'.signedEndpointCredential }
  | .issuerBundle => { r with issuerBundle := r'.issuerBundle }

/-- The response with one part of another. -/
def splice (component : Component) (r r' : BusinessHomeResponse) : BusinessHomeResponse :=
  match component with
  | .request => { r with request := r'.request }
  | .innerRequest => { r with request := { r.request with request := r'.request.request } }
  | .services => { r with request := { r.request with services := r'.request.services } }
  | .response => { r with response := r'.response }
  | .responsePart part => { r with response := spliceResponse part r.response r'.response }
  | .grant => { r with grant := r'.grant }

def format (codec : EnrollmentCodec) (root : String) :
    Splice.Format ℕ BusinessHomeResponse BusinessHomeRequest Content (Option HomeServiceGrant)
      Component where
  valid now r := (r.validate codec root now).isSome
  distinct := NoCollision codec
  request := request
  content := content codec
  approval r := codec.grant r.grant.payloadHex
  splice := splice
  approving := .grant

theorem format_binds (codec : EnrollmentCodec) (root : String) : (format codec root).Binds where
  content h h' hfree hgrant := content_eq h h' hfree hgrant
  request h := congrArg Content.request h
  splice {component _ _} h := by
    cases component
    case grant => exact absurd rfl h
    all_goals rfl
  spliceApproval := rfl
  spliceRequest := rfl

end BusinessHomeResponse

/-- Directed responses that validate bind what was requested, and none stays valid with the approval
of another request or with a part of another response that changes what its approval covers. -/
theorem directedResponses_bind (codec : EnrollmentCodec) (root : String) :
    (∀ (r : BusinessTravelResponse) now credential trust,
      r.validate codec root now = some (credential, trust) →
      r.Bound codec root now credential trust) ∧
    (∀ (r : ServiceClassTravelResponse) now credential trust,
      r.validate codec root now = some (credential, trust) →
      r.Bound codec root now credential trust) ∧
    (∀ (r : BusinessHomeResponse) now trust, r.validate codec root now = some trust →
      ∃ endpoint grant, r.Bound codec root now trust endpoint grant) ∧
    (BusinessTravelResponse.format codec root).Rejects ∧
    (ServiceClassTravelResponse.format codec root).Rejects ∧
    (BusinessHomeResponse.format codec root).Rejects := by
  refine ⟨?_, ?_, ?_, (BusinessTravelResponse.format_binds codec root).rejects,
    (ServiceClassTravelResponse.format_binds codec root).rejects,
    (BusinessHomeResponse.format_binds codec root).rejects⟩
  · intro r now credential trust h
    exact (BusinessTravelResponse.accepted_and_bound h).2
  · intro r now credential trust h
    exact (ServiceClassTravelResponse.accepted_and_bound h).2
  · intro r now trust h
    exact BusinessHomeResponse.exists_bound h

/-! Two class requests of one Travel, approved by a Global issuer. Objects are told apart by the
request they are for, and payloads are padded to digests. -/

def sampleClassDeployment : DeploymentTrust :=
  { sampleDeployment with
    homeEnrollmentAuthorities := [⟨"enroller-1", 1, "home-1", sampleKey 'd'⟩]
    travelAuthorities := [.global "authority-1" 1 "home-1" (sampleKey 'b')] }

/-- The endpoint of the issuing Home, which begins after the credentials do. -/
def sampleIssuer : HomeEndpointCredential where
  deploymentId := "deployment-1"
  credentialId := 7
  authorityId := "enroller-1"
  authorityEpoch := 1
  enrollmentRequestId := 6
  homeId := "home-1"
  managementSpkiSha256 := samplePin '1'
  businessSpkiSha256 := samplePin '2'
  notBeforeUnixSecs := 900
  notAfterUnixSecs := 6000

def sampleClassRequest (requestId : ℕ) : ServiceClassTravelRequest where
  objectType := serviceClassTravelRequestType
  request :=
    { requestId := requestId
      nonce := samplePin '9'
      travelId := "travel-1"
      createdAtUnixSecs := 900
      managementCsrPem := "management"
      businessCsrPem := "business" }
  descriptor :=
    { approvingHomeId := "home-1"
      applicationProtocol := "http"
      protocol := .tcp }
  label := "phone"

def sampleClassApproval (requestId : ℕ) : TravelEnrollmentApproval where
  credentialId := 10 + requestId
  authorityId := "authority-1"
  scope := .serviceClass "http" .tcp
  request := (sampleClassRequest requestId).request
  notBeforeUnixSecs := 700
  notAfterUnixSecs := 5000

/-- The codec before it knows what was signed. -/
def sampleDigests : EnrollmentCodec :=
  { sampleCodec with
    trust := fun payloadHex => if payloadHex = "7b7d" then some sampleClassDeployment else none
    endpoint := fun payloadHex => if payloadHex = "f1" then some sampleIssuer else none
    credential := fun _ => none
    snapshotSha256 := fun _ => ""
    csr := fun pem =>
      let publicKey := if pem = "management" then "11" else "22"
      some ⟨publicKey, true, [some "flowsplice://identity/travel/travel-1"], []⟩
    certificate := some
    peerIdentity := fun certificate =>
      some ⟨.travel, "travel-1", sampleCodec.sha256 (if certificate = "e1" then "11" else "22"),
        700, 5000⟩
    chains := fun _ _ _ => true
    managementCaPem := fun _ => ""
    businessCaPem := fun _ => ""
    textSha256 := fun _ => samplePin '5'
    travelApproval := fun _ => none
    travelRequestJson := fun request => if request.requestId = 1 then "a1" else "a2"
    businessTravelRequestJson := fun _ => ""
    businessDescriptorJson := fun _ => ""
    serviceClassTravelRequestJson := fun request =>
      if request.request.requestId = 1 then "b1" else "b2"
    serviceClassDescriptorJson := fun _ => "b0"
    businessHomeRequestJson := fun _ => ""
    issuerBundleJson := fun _ => "" }

def sampleClassCredential (requestId : ℕ) : TravelCredential :=
  expectedCredential sampleDigests (sampleClassApproval requestId) ⟨"7b7d", "a"⟩ sampleClassDeployment
    (.global "authority-1" 1 "home-1" (sampleKey 'b')) "e1" "e2" (sampleDigests.sha256 "11")
    (sampleDigests.sha256 "22")

def sampleTravelApproval (requestId : ℕ) (credentialHex : String) : TravelApproval where
  objectType := serviceClassApprovalType
  deploymentId := "deployment-1"
  authorityId := "authority-1"
  authorityEpoch := 1
  requestId := requestId
  requestSha256 := sampleDigests.sha256
    (sampleDigests.serviceClassTravelRequestJson (sampleClassRequest requestId))
  descriptorSha256 := sampleDigests.sha256 "b0"
  credentialPayloadSha256 := sampleDigests.sha256 credentialHex

def sampleEnrollmentCodec : EnrollmentCodec :=
  { sampleDigests with
    credential := fun payloadHex =>
      if payloadHex = "c1" then some (sampleClassCredential 1)
      else if payloadHex = "c2" then some (sampleClassCredential 2) else none
    travelApproval := fun payloadHex =>
      if payloadHex = "d1" then some (sampleTravelApproval 1 "c1")
      else if payloadHex = "d2" then some (sampleTravelApproval 2 "c2") else none }

/-- The response of the first or of the second request. -/
def sampleClassResponse (requestId : ℕ) (credentialHex approvalHex : String)
    (homeEndpointCredential : Option SignedHomeEndpointCredential) :
    ServiceClassTravelResponse where
  objectType := serviceClassTravelResponseType
  request := sampleClassRequest requestId
  response :=
    { approval := sampleClassApproval requestId
      deploymentTrust := ⟨"7b7d", "a"⟩
      homeEndpointCredential := homeEndpointCredential
      managementCertificatePem := "e1"
      businessCertificatePem := "e2"
      signedCredential := ⟨"authority-1", credentialHex, "b"⟩ }
  approval := ⟨"authority-1", approvalHex, "b"⟩

def sampleFirstResponse : ServiceClassTravelResponse := sampleClassResponse 1 "c1" "d1" none

def sampleSecondResponse : ServiceClassTravelResponse :=
  sampleClassResponse 2 "c2" "d2" (some ⟨"enroller-1", "f1", "d"⟩)

theorem directedResponses_bind_class :
    (sampleFirstResponse.Bound sampleEnrollmentCodec (sampleKey 'a') 1000 (sampleClassCredential 1)
      sampleClassDeployment) ∧
    ¬ ((sampleFirstResponse.splice .approval sampleSecondResponse).validate sampleEnrollmentCodec
      (sampleKey 'a') 1000).isSome := by
  have hbind := directedResponses_bind sampleEnrollmentCodec (sampleKey 'a')
  constructor
  · exact hbind.2.1 sampleFirstResponse 1000 (sampleClassCredential 1) sampleClassDeployment
      (by decide +kernel)
  · have hself : sampleFirstResponse.NoCollision sampleEnrollmentCodec
        (sampleFirstResponse.splice .approval sampleSecondResponse) :=
      ⟨fun _ => rfl, TravelEnrollmentResponse.NoCollision.refl _⟩
    have hother : sampleSecondResponse.NoCollision sampleEnrollmentCodec
        (sampleFirstResponse.splice .approval sampleSecondResponse) :=
      ⟨fun h => absurd h (by decide +kernel),
        { request := fun h => absurd h (by decide +kernel)
          trust := fun _ => rfl
          managementCertificate := fun _ _ h h' _ => Option.some.inj (h.symm.trans h')
          businessCertificate := fun _ _ h h' _ => Option.some.inj (h.symm.trans h')
          credential := fun h => absurd h (by decide +kernel) }⟩
    have hfirst : (sampleFirstResponse.validate sampleEnrollmentCodec (sampleKey 'a') 1000).isSome :=
      by decide +kernel
    have hsecond :
        (sampleSecondResponse.validate sampleEnrollmentCodec (sampleKey 'a') 1000).isSome := by
      decide +kernel
    exact hbind.2.2.2.2.1 .approval sampleFirstResponse sampleSecondResponse 1000 1000 1000 hfirst
      hsecond (by decide) hself hother (.inl rfl)

/-! Two requests of one Home with the same keys, approved for the same time. -/

def sampleServingRequest (requestId : ℕ) : BusinessHomeRequest where
  request :=
    { requestId := requestId
      nonce := samplePin '9'
      homeId := "home-2"
      createdAtUnixSecs := 900
      managementCsrPem := "management"
      businessCsrPem := "business" }
  services := [⟨"web", .tcp, "http", ["read"]⟩]

def sampleServingEndpoint (requestId : ℕ) : HomeEndpointCredential where
  deploymentId := "deployment-1"
  credentialId := 20 + requestId
  authorityId := "enroller-1"
  authorityEpoch := 1
  enrollmentRequestId := requestId
  homeId := "home-2"
  managementSpkiSha256 := sampleDigests.sha256 "11"
  businessSpkiSha256 := sampleDigests.sha256 "22"
  notBeforeUnixSecs := 900
  notAfterUnixSecs := 6000

def sampleServingGrant (endpointHex requestHex : String) : HomeServiceGrant where
  deploymentId := "deployment-1"
  authorityId := "enroller-1"
  authorityEpoch := 1
  homeId := "home-2"
  endpointPayloadSha256 := sampleDigests.sha256 endpointHex
  enrollmentRequestSha256 := sampleDigests.sha256 requestHex
  services := [⟨"web", .tcp, "http", ["read"]⟩]
  notBeforeUnixSecs := 900
  notAfterUnixSecs := 6000

/-- Two generations of one trust, and certificates whose last digit is that of their request. -/
def sampleServingCodec : EnrollmentCodec :=
  { sampleDigests with
    trust := fun payloadHex =>
      if payloadHex = "7b7d" then some sampleClassDeployment
      else if payloadHex = "7b7e" then some { sampleClassDeployment with generation := 2 } else none
    endpoint := fun payloadHex =>
      if payloadHex = "f1" then some (sampleServingEndpoint 1)
      else if payloadHex = "f2" then some (sampleServingEndpoint 2) else none
    grant := fun payloadHex =>
      if payloadHex = "a1" then some (sampleServingGrant "f1" "b1")
      else if payloadHex = "a2" then some (sampleServingGrant "f2" "b2") else none
    csr := fun pem =>
      if pem = "management" then
        some ⟨"11", true, [some "flowsplice://identity/home/home-2"], [.clientAuth]⟩
      else some ⟨"22", true, [some "flowsplice://identity/home/home-2"], [.serverAuth, .clientAuth]⟩
    peerIdentity := fun certificate =>
      some ⟨.home, "home-2",
        sampleCodec.sha256 (if certificate = "e1" ∨ certificate = "e2" then "11" else "22"), 900,
        6000⟩
    businessHomeRequestJson := fun request => if request.request.requestId = 1 then "b1" else "b2" }

def sampleServingResponse (requestId : ℕ) (trustHex managementPem businessPem endpointHex
    grantHex : String) : BusinessHomeResponse where
  request := sampleServingRequest requestId
  response :=
    { approval :=
        { credentialId := 20 + requestId
          authorityId := "enroller-1"
          profile := .servingOnly
          request := (sampleServingRequest requestId).request
          notBeforeUnixSecs := 900
          notAfterUnixSecs := 6000 }
      deploymentTrust := ⟨trustHex, "a"⟩
      managementCertificatePem := managementPem
      businessCertificatePem := businessPem
      signedEndpointCredential := ⟨"enroller-1", endpointHex, "d"⟩ }
  grant := ⟨"enroller-1", grantHex, "d"⟩

def sampleFirstServing : BusinessHomeResponse :=
  sampleServingResponse 1 "7b7d" "e1" "c1" "f1" "a1"

def sampleSecondServing : BusinessHomeResponse :=
  sampleServingResponse 2 "7b7e" "e2" "c2" "f2" "a2"

/-- The approval does not cover the endpoint of the issuing Home, so that one of another response
fits; and a credential may begin before the endpoint of its issuer does. The grant of a Home covers
neither the bytes of the certificates nor the generation of the trust. -/
theorem not_directedResponses_bind :
    ((sampleFirstResponse.validate sampleEnrollmentCodec (sampleKey 'a') 1000).isSome ∧
      (sampleSecondResponse.validate sampleEnrollmentCodec (sampleKey 'a') 1000).map Prod.fst =
        some (sampleClassCredential 2) ∧
      sampleFirstResponse.request ≠ sampleSecondResponse.request ∧
      sampleFirstResponse.splice (.responsePart .homeEndpointCredential) sampleSecondResponse ≠
        sampleFirstResponse ∧
      ((sampleFirstResponse.splice (.responsePart .homeEndpointCredential)
        sampleSecondResponse).validate sampleEnrollmentCodec (sampleKey 'a') 1000).isSome ∧
      (sampleClassCredential 2).notBeforeUnixSecs < sampleIssuer.notBeforeUnixSecs) ∧
    (sampleFirstServing.validate sampleServingCodec (sampleKey 'a') 1000).isSome ∧
    (sampleSecondServing.validate sampleServingCodec (sampleKey 'a') 1000).isSome ∧
    sampleFirstServing.request ≠ sampleSecondServing.request ∧
    ∀ part ∈ [BusinessHomeResponse.ResponsePart.deploymentTrust, .managementCertificatePem,
        .businessCertificatePem],
      sampleFirstServing.splice (.responsePart part) sampleSecondServing ≠ sampleFirstServing ∧
      ((sampleFirstServing.splice (.responsePart part) sampleSecondServing).validate
        sampleServingCodec (sampleKey 'a') 1000).isSome := by
  refine ⟨?_, ?_, ?_, ?_, ?_⟩ <;> decide +kernel

end FlowSplice
