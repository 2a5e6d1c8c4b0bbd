import FlowSplice.Issuance.Directed
import FlowSplice.Lib.Splice

/-! What a directed response for a Travel binds, and what may not be spliced into it. -/
namespace FlowSplice
variable {codec : EnrollmentCodec} {root : String} {now : ℕ} {credential : TravelCredential}
  {trust : DeploymentTrust}

/-- What a certificate certifies. The digest of a key is compared without regard to its case. -/
structure Certified where
  role : Role
  id : String
  spkiSha256 : List UInt8
  notBeforeUnixSecs : ℕ
  notAfterUnixSecs : ℕ
deriving DecidableEq, Repr

def PeerIdentity.certified (identity : PeerIdentity) : Certified where
  role := identity.role
  id := identity.id
  spkiSha256 := (stringBytes identity.spkiSha256).map toAsciiLowercase
  notBeforeUnixSecs := identity.notBeforeUnixSecs
  notAfterUnixSecs := identity.notAfterUnixSecs

namespace EnrollmentCodec

def certified (codec : EnrollmentCodec) (pem : String) : Option Certified :=
  ((codec.certificate pem).bind codec.peerIdentity).map PeerIdentity.certified

/-- A certificate of this identity, key and validity, which the CA has signed. -/
structure Certifies (codec : EnrollmentCodec) (pem caPem : String) (identity : PeerIdentity)
    (now : ℕ) : Prop where
  certified : codec.certified pem = some identity.certified
  chains : ∃ certificate, codec.certificate pem = some certificate ∧
    codec.chains certificate caPem now = true

end EnrollmentCodec

theorem certifies_of_validate {pem certificate caPem id spkiSha256 : String} {role : Role}
    {notBefore notAfter : ℕ} (hpem : codec.certificate pem = some certificate)
    (h : validateCertificate codec certificate caPem role id spkiSha256 notBefore notAfter now =
      true) :
    codec.Certifies pem caPem ⟨role, id, spkiSha256, notBefore, notAfter⟩ now := by
  simp only [validateCertificate, requirePeer, Option.any_eq_true, Option.all_some,
    List.isEmpty_nil, Bool.true_or, Bool.and_eq_true, beq_iff_eq] at h
  obtain ⟨identity, hidentity, ⟨⟨⟨⟨⟨hrole, hid⟩, -⟩, hspki⟩, hbefore⟩, hafter⟩, hchains⟩ := h
  have hbytes : (stringBytes identity.spkiSha256).map toAsciiLowercase =
      (stringBytes spkiSha256).map toAsciiLowercase := by
    unfold eqIgnoreAsciiCase at hspki
    exact beq_iff_eq.mp hspki
  constructor
  · rw [EnrollmentCodec.certified, hpem, Option.bind_some, hidentity, Option.map_some]
    simp only [PeerIdentity.certified, hrole, hid, hbytes, hbefore, hafter]
  · exact ⟨certificate, hpem, hchains⟩

/-- What `validate_enrollment_response` reads on the way. -/
structure Evidence where
  management : Csr
  business : Csr
  authority : TrustedTravelAuthority
  managementCertificate : String
  businessCertificate : String

/-- What it found to be so. -/
structure TravelEnrollmentResponse.Accepted (codec : EnrollmentCodec) (root : String) (now : ℕ)
    (response : TravelEnrollmentResponse) (credential : TravelCredential) (trust : DeploymentTrust)
    (evidence : Evidence) : Prop where
  version : response.version = enrollmentVersion
  approvalVersion : response.approval.version = enrollmentVersion
  managementCsr : codec.csr response.approval.request.managementCsrPem = some evidence.management
  businessCsr : codec.csr response.approval.request.businessCsrPem = some evidence.business
  trusted : response.deploymentTrust.verify codec.toCodec root now = some trust
  notBefore : trust.notBeforeUnixSecs ≤ response.approval.notBeforeUnixSecs
  notAfter : response.approval.notAfterUnixSecs ≤ trust.notAfterUnixSecs
  signed : response.signedCredential.verify codec.toAuthorizationCodec evidence.authority =
    some credential
  managementPem : codec.certificate response.managementCertificatePem =
    some evidence.managementCertificate
  businessPem : codec.certificate response.businessCertificatePem =
    some evidence.businessCertificate
  expected : credential = expectedCredential codec response.approval response.deploymentTrust trust
    evidence.authority evidence.managementCertificate evidence.businessCertificate
    (codec.sha256 evidence.management.publicKeyInfo) (codec.sha256 evidence.business.publicKeyInfo)
  managementCertified : codec.Certifies response.managementCertificatePem
    (codec.managementCaPem response.deploymentTrust.payloadHex)
    ⟨.travel, credential.travelId, credential.managementSpkiSha256, credential.notBeforeUnixSecs,
      credential.notAfterUnixSecs⟩ now
  businessCertified : codec.Certifies response.businessCertificatePem
    (codec.businessCaPem response.deploymentTrust.payloadHex)
    ⟨.travel, credential.travelId, credential.businessSpkiSha256, credential.notBeforeUnixSecs,
      credential.notAfterUnixSecs⟩ now

theorem csr_of_parseRequest {validate : Csr → List ExtendedKeyUsage → Bool}
    {nonce id managementPem businessPem : String} {createdAt : ℕ} {management business : Csr}
    (h : parseRequest codec validate nonce id createdAt managementPem businessPem now =
      some (management, business)) :
    codec.csr managementPem = some management ∧ codec.csr businessPem = some business := by
  simp only [parseRequest, Option.bind_eq_bind, Option.bind_eq_some_iff, Option.pure_def,
    Option.some.injEq, Prod.mk.injEq] at h
  obtain ⟨-, -, management', hmanagement, business', hbusiness, -, -, rfl, rfl⟩ := h
  exact ⟨hmanagement, hbusiness⟩

theorem TravelEnrollmentResponse.exists_accepted {response : TravelEnrollmentResponse}
    (h : validateEnrollmentResponse codec response root now = some (credential, trust)) :
    ∃ evidence, response.Accepted codec root now credential trust evidence := by
  simp only [validateEnrollmentResponse, Option.bind_eq_bind, Option.bind_eq_some_iff,
    Option.pure_def, Option.some.injEq, Prod.mk.injEq, ensure_eq_some, Bool.and_eq_true,
    beq_iff_eq, decide_eq_true_eq] at h
  obtain ⟨_, hversion, ⟨management, business⟩, hparsed, _, hinterval, trust', htrust, _, hwindow,
    authorities, hauthorities, authority, hauthority, actual, hactual, managementCertificate,
    hmanagement, businessCertificate, hbusiness, _, ⟨⟨hexpected, hmanages⟩, hserves⟩, rfl, rfl⟩ := h
  simp only [parseEnrollmentRequest, Option.bind_eq_bind, Option.bind_eq_some_iff] at hparsed
  obtain ⟨-, -, hparsed⟩ := hparsed
  have hcsr := csr_of_parseRequest hparsed
  exact ⟨⟨management, business, authority, managementCertificate, businessCertificate⟩,
    { version := hversion.1.1
      approvalVersion := hversion.1.2
      managementCsr := hcsr.1
      businessCsr := hcsr.2
      trusted := htrust
      notBefore := hwindow.1.1.1
      notAfter := hwindow.1.1.2
      signed := hactual
      managementPem := hmanagement
      businessPem := hbusiness
      expected := hexpected
      managementCertified := by
        rw [hexpected]
        exact certifies_of_validate hmanagement hmanages
      businessCertified := by
        rw [hexpected]
        exact certifies_of_validate hbusiness hserves }⟩

/-- What a credential covers of a response. -/
structure TravelContent where
  approval : TravelEnrollmentApproval
  credential : Option TravelCredential
  trust : Option DeploymentTrust
  managementCertificate : Option String
  businessCertificate : Option String

def TravelEnrollmentResponse.content (codec : EnrollmentCodec)
    (response : TravelEnrollmentResponse) : TravelContent where
  approval := response.approval
  credential := codec.credential response.signedCredential.payloadHex
  trust := codec.trust response.deploymentTrust.payloadHex
  managementCertificate := codec.certificate response.managementCertificatePem
  businessCertificate := codec.certificate response.businessCertificatePem

/-- SHA-256 has no collision between what is digested of two responses. -/
structure TravelEnrollmentResponse.NoCollision (codec : EnrollmentCodec)
    (r r' : TravelEnrollmentResponse) : Prop where
  request : codec.sha256 (codec.travelRequestJson r.approval.request) =
    codec.sha256 (codec.travelRequestJson r'.approval.request) →
    r.approval.request = r'.approval.request
  trust : codec.sha256 r.deploymentTrust.payloadHex = codec.sha256 r'.deploymentTrust.payloadHex →
    codec.trust r.deploymentTrust.payloadHex = codec.trust r'.deploymentTrust.payloadHex
  managementCertificate : ∀ certificate certificate',
    codec.certificate r.managementCertificatePem = some certificate →
    codec.certificate r'.managementCertificatePem = some certificate' →
    codec.sha256 certificate = codec.sha256 certificate' → certificate = certificate'
  businessCertificate : ∀ certificate certificate',
    codec.certificate r.businessCertificatePem = some certificate →
    codec.certificate r'.businessCertificatePem = some certificate' →
    codec.sha256 certificate = codec.sha256 certificate' → certificate = certificate'
  credential : codec.sha256 r.signedCredential.payloadHex =
    codec.sha256 r'.signedCredential.payloadHex →
    codec.credential r.signedCredential.payloadHex = codec.credential r'.signedCredential.payloadHex

theorem TravelEnrollmentResponse.NoCollision.refl (r : TravelEnrollmentResponse) :
    r.NoCollision codec r where
  request _ := rfl
  trust _ := rfl
  managementCertificate _ _ h h' _ := Option.some.inj (h.symm.trans h')
  businessCertificate _ _ h h' _ := Option.some.inj (h.symm.trans h')
  credential _ := rfl

section Responses
variable {root' : String} {now' : ℕ} {credential' : TravelCredential} {trust' : DeploymentTrust}

theorem TravelEnrollmentResponse.Accepted.content_eq {r r' : TravelEnrollmentResponse}
    {evidence evidence' : Evidence} (h : r.Accepted codec root now credential trust evidence)
    (h' : r'.Accepted codec root' now' credential' trust' evidence') (hfree : r.NoCollision codec r')
    (hcredential : codec.credential r.signedCredential.payloadHex =
      codec.credential r'.signedCredential.payloadHex) :
    r.content codec = r'.content codec := by
  have hpayload := (SignedTravelCredential.verify_iff.mp h.signed).payload
  have hpayload' := (SignedTravelCredential.verify_iff.mp h'.signed).payload
  have hsame : credential = credential' := by
    rw [hpayload, hpayload'] at hcredential
    exact Option.some.inj hcredential
  have hexpected := h.expected
  rw [hsame, h'.expected] at hexpected
  simp only [expectedCredential, TravelCredential.mk.injEq] at hexpected
  obtain ⟨-, -, -, htrust, hid, hauthority, -, -, -, hrequest, -, -, -, -, -, hmanagement, hbusiness,
    hscope, hbefore, hafter⟩ := hexpected
  have hrequest' := hfree.request hrequest.symm
  have hmanagement' := hfree.managementCertificate _ _ h.managementPem h'.managementPem
    hmanagement.symm
  have hbusiness' := hfree.businessCertificate _ _ h.businessPem h'.businessPem hbusiness.symm
  have happroval : r.approval = r'.approval := by
    have hversion := h.approvalVersion.trans h'.approvalVersion.symm
    cases hr : r.approval
    cases hr' : r'.approval
    simp only [hr, hr'] at *
    simp only [TravelEnrollmentApproval.mk.injEq]
    exact ⟨hversion, hid.symm, hauthority.symm, hscope.symm, hrequest', hbefore.symm, hafter.symm⟩
  unfold TravelEnrollmentResponse.content
  rw [happroval, hcredential, hfree.trust htrust.symm, h.managementPem, h'.managementPem,
    h.businessPem, h'.businessPem, hmanagement', hbusiness']

end Responses

/-- A signed approval with its payload and the authority that signed it, which cover the credential
and what the applicant asked for. -/
structure SignedTravelApproval.Approves (codec : EnrollmentCodec) (now : ℕ)
    (signed : SignedTravelApproval) (trust : DeploymentTrust)
    (issuer : Option SignedHomeEndpointCredential) (intent : Intent)
    (credential : SignedTravelCredential) (travel : TravelCredential) (payload : TravelApproval)
    (authority : TrustedTravelAuthority) : Prop where
  decoded : codec.travelApproval signed.payloadHex = some payload
  trusted : trust.Trusts codec.toCodec issuer.toList authority
  signature : codec.verifies authority.publicKey signed.payloadHex signed.signatureHex = true
  issuedBy : intent.issuedBy authority = true
  authorityId : payload.authorityId = authority.id
  authorityEpoch : payload.authorityEpoch = authority.epoch
  credentialSigned : credential.SignedBy codec.toAuthorizationCodec authority travel
  requestId : payload.requestId = travel.enrollmentRequestId
  requestDigest : payload.requestSha256 = intent.requestSha256
  descriptorDigest : payloadDigest codec intent.descriptorJson = some payload.descriptorSha256
  credentialDigest : payloadDigest codec credential.payloadHex =
    some payload.credentialPayloadSha256
  scope : travel.scope = intent.scope
  active : travel.activeAt now = true
  notBefore : trust.notBeforeUnixSecs ≤ travel.notBeforeUnixSecs
  notAfter : travel.notAfterUnixSecs ≤ intent.notAfterUnixSecs
  issuerEndpoint : ∀ signed ∈ issuer, ∃ endpoint, signed.verify codec.toCodec trust now = some endpoint ∧
    endpoint.homeId = intent.approvingHomeId ∧
    travel.notAfterUnixSecs ≤ endpoint.notAfterUnixSecs

theorem SignedTravelApproval.exists_approves {signed : SignedTravelApproval}
    {validate : TravelApproval → Bool} {issuer : Option SignedHomeEndpointCredential}
    {intent : Intent} {credential : SignedTravelCredential} {travel : TravelCredential}
    (h : signed.verify codec validate trust issuer intent credential now = some travel) :
    ∃ payload authority,
      signed.Approves codec now trust issuer intent credential travel payload authority := by
  simp only [verify, verifySignature, Option.bind_eq_bind, Option.bind_eq_some_iff, Option.pure_def,
    Option.some.injEq, ensure_eq_some, Bool.and_eq_true, beq_iff_eq, decide_eq_true_eq] at h
  obtain ⟨payload, hpayload, authorities, hauthorities, authority, hauthority, _, hissuedBy,
    travel', htravel, _, hissuer, descriptorSha256, hdescriptor, credentialSha256, hcredential, _,
    hall, rfl⟩ := h
  have hmem := List.mem_of_find?_eq_some hauthority
  have hid := List.find?_some hauthority
  rw [beq_iff_eq] at hid
  have htrusted := (mem_travelAuthoritiesWithHomeDelegations hauthorities authority).mp hmem
  obtain ⟨⟨⟨⟨⟨⟨⟨⟨⟨⟨⟨⟨⟨-, -⟩, hepoch⟩, -⟩, -⟩, hrequestId⟩, hrequest⟩, hdescriptor'⟩, hcredential'⟩,
    hactive⟩, hbefore⟩, hafter⟩, hscope⟩, hsignature⟩ := hall
  refine ⟨payload, authority,
    { decoded := (Option.filter_eq_some_iff.mp hpayload).1
      trusted := htrusted
      signature := hsignature.2
      issuedBy := hissuedBy
      authorityId := hid.symm
      authorityEpoch := hepoch
      credentialSigned := SignedTravelCredential.verify_iff.mp htravel
      requestId := hrequestId
      requestDigest := hrequest
      descriptorDigest := by rw [hdescriptor, hdescriptor']
      credentialDigest := by rw [hcredential, hcredential']
      scope := hscope
      active := hactive
      notBefore := hbefore
      notAfter := hafter
      issuerEndpoint := ?_ }⟩
  intro endpoint hendpoint
  rw [Option.mem_def] at hendpoint
  subst hendpoint
  rw [Option.all_some, Option.any_eq_true] at hissuer
  obtain ⟨verified, hverified, hok⟩ := hissuer
  simp only [Bool.and_eq_true, beq_iff_eq, decide_eq_true_eq] at hok
  exact ⟨verified, hverified, hok⟩

theorem payloadDigest_eq_some {payloadHex digest : String}
    (h : payloadDigest codec payloadHex = some digest) : digest = codec.sha256 payloadHex := by
  unfold payloadDigest at h
  split_ifs at h
  exact (Option.some.inj h).symm

/-- Two signed approvals with one payload are of one request and one credential. -/
theorem SignedTravelApproval.Approves.same {signed signed' : SignedTravelApproval}
    {now' : ℕ} {trust' : DeploymentTrust} {issuer issuer' : Option SignedHomeEndpointCredential}
    {intent intent' : Intent} {credential credential' : SignedTravelCredential}
    {travel travel' : TravelCredential} {payload payload' : TravelApproval}
    {authority authority' : TrustedTravelAuthority}
    (h : signed.Approves codec now trust issuer intent credential travel payload authority)
    (h' : signed'.Approves codec now' trust' issuer' intent' credential' travel' payload' authority')
    (hseal : codec.travelApproval signed.payloadHex = codec.travelApproval signed'.payloadHex) :
    intent.requestSha256 = intent'.requestSha256 ∧
      codec.sha256 credential.payloadHex = codec.sha256 credential'.payloadHex := by
  rw [h.decoded, h'.decoded] at hseal
  obtain rfl := Option.some.inj hseal
  have hdigest := payloadDigest_eq_some h.credentialDigest
  have hdigest' := payloadDigest_eq_some h'.credentialDigest
  exact ⟨h.requestDigest.symm.trans h'.requestDigest, hdigest.symm.trans hdigest'⟩

/-- What a directed response for a Travel binds: the request that was made, its two keys and their
certificates, and the credential for what was asked, covered by the approval of a trusted
authority. -/
structure TravelEnrollmentResponse.Bound (codec : EnrollmentCodec) (root : String) (now : ℕ)
    (response : TravelEnrollmentResponse) (request : TravelEnrollmentRequest) (intent : Intent)
    (signed : SignedTravelApproval) (credential : TravelCredential) (trust : DeploymentTrust) :
    Prop where
  innerRequest : response.approval.request = request
  trusted : response.deploymentTrust.verify codec.toCodec root now = some trust
  managementKey : ∃ csr, codec.csr request.managementCsrPem = some csr ∧
    credential.managementSpkiSha256 = codec.sha256 csr.publicKeyInfo
  businessKey : ∃ csr, codec.csr request.businessCsrPem = some csr ∧
    credential.businessSpkiSha256 = codec.sha256 csr.publicKeyInfo
  managementCertificate : codec.Certifies response.managementCertificatePem
    (codec.managementCaPem response.deploymentTrust.payloadHex)
    ⟨.travel, request.travelId, credential.managementSpkiSha256, credential.notBeforeUnixSecs,
      credential.notAfterUnixSecs⟩ now
  businessCertificate : codec.Certifies response.businessCertificatePem
    (codec.businessCaPem response.deploymentTrust.payloadHex)
    ⟨.travel, request.travelId, credential.businessSpkiSha256, credential.notBeforeUnixSecs,
      credential.notAfterUnixSecs⟩ now
  travelId : credential.travelId = request.travelId
  requestId : credential.enrollmentRequestId = request.requestId
  requestDigest : credential.enrollmentRequestSha256 = codec.sha256 (codec.travelRequestJson request)
  approved : ∃ payload authority, signed.Approves codec now trust response.homeEndpointCredential
    intent response.signedCredential credential payload authority
  notAfter : credential.notAfterUnixSecs ≤ trust.notAfterUnixSecs

theorem TravelEnrollmentResponse.Accepted.bound {response : TravelEnrollmentResponse}
    {evidence : Evidence} {request : TravelEnrollmentRequest} {intent : Intent}
    {signed : SignedTravelApproval} {validate : TravelApproval → Bool}
    (h : response.Accepted codec root now credential trust evidence)
    (hrequest : response.approval.request = request)
    (happroval : signed.verify codec validate trust response.homeEndpointCredential intent
      response.signedCredential now = some credential) :
    response.Bound codec root now request intent signed credential trust := by
  have hexpected := h.expected
  subst hrequest
  have htravel : credential.travelId = response.approval.request.travelId := by
    rw [hexpected]
    rfl
  exact
    { innerRequest := rfl
      trusted := h.trusted
      managementKey := ⟨evidence.management, h.managementCsr, by rw [hexpected]; rfl⟩
      businessKey := ⟨evidence.business, h.businessCsr, by rw [hexpected]; rfl⟩
      managementCertificate := by
        rw [← htravel]
        exact h.managementCertified
      businessCertificate := by
        rw [← htravel]
        exact h.businessCertified
      travelId := htravel
      requestId := by rw [hexpected]; rfl
      requestDigest := by rw [hexpected]; rfl
      approved := SignedTravelApproval.exists_approves happroval
      notAfter := by rw [hexpected]; exact h.notAfter }

/-- A part of a response. -/
inductive ResponseComponent where
  | approval
  | deploymentTrust
  | homeEndpointCredential
  | managementCertificatePem
  | businessCertificatePem
  | signedCredential
deriving DecidableEq, Repr

/-- The response with one part of another. -/
def TravelEnrollmentResponse.splice (component : ResponseComponent)
    (r r' : TravelEnrollmentResponse) : TravelEnrollmentResponse :=
  match component with
  | .approval => { r with approval := r'.approval }
  | .deploymentTrust => { r with deploymentTrust := r'.deploymentTrust }
  | .homeEndpointCredential => { r with homeEndpointCredential := r'.homeEndpointCredential }
  | .managementCertificatePem => { r with managementCertificatePem := r'.managementCertificatePem }
  | .businessCertificatePem => { r with businessCertificatePem := r'.businessCertificatePem }
  | .signedCredential => { r with signedCredential := r'.signedCredential }

/-- Two responses with one approval payload, both bound and accepted, are of one request and have
the same content. -/
theorem TravelEnrollmentResponse.Bound.content_eq {r r' : TravelEnrollmentResponse}
    {root' : String} {now' : ℕ} {credential' : TravelCredential} {trust' : DeploymentTrust}
    {request request' : TravelEnrollmentRequest} {intent intent' : Intent}
    {signed signed' : SignedTravelApproval} {evidence evidence' : Evidence}
    (h : r.Bound codec root now request intent signed credential trust)
    (h' : r'.Bound codec root' now' request' intent' signed' credential' trust')
    (haccepted : r.Accepted codec root now credential trust evidence)
    (haccepted' : r'.Accepted codec root' now' credential' trust' evidence')
    (hfree : r.NoCollision codec r') (hseal : codec.travelApproval signed.payloadHex =
      codec.travelApproval signed'.payloadHex) :
    intent.requestSha256 = intent'.requestSha256 ∧ r.content codec = r'.content codec := by
  obtain ⟨payload, authority, happroves⟩ := h.approved
  obtain ⟨payload', authority', happroves'⟩ := h'.approved
  have hsame := happroves.same happroves' hseal
  exact ⟨hsame.1, haccepted.content_eq haccepted' hfree (hfree.credential hsame.2)⟩

namespace BusinessTravelResponse

/-- What a response that validates binds. The target is what the descriptor's signed grant says of
the one service it names. -/
def Bound (codec : EnrollmentCodec) (root : String) (now : ℕ) (self : BusinessTravelResponse)
    (credential : TravelCredential) (trust : DeploymentTrust) : Prop :=
  ∃ target requestSha256, self.request.descriptor.verify codec.toCodec trust now = some target ∧
    target.approvingHomeId = self.request.descriptor.approvingHomeId ∧
    target.service.serviceId = self.request.descriptor.serviceId ∧
    payloadDigest codec (codec.businessTravelRequestJson self.request) = some requestSha256 ∧
    self.response.Bound codec root now self.request.request
      (self.request.descriptor.intent codec target requestSha256) self.approval credential trust

theorem accepted_and_bound {self : BusinessTravelResponse}
    (h : self.validate codec root now = some (credential, trust)) :
    (∃ evidence, self.response.Accepted codec root now credential trust evidence) ∧
      self.Bound codec root now credential trust := by
  simp only [validate, Option.bind_eq_bind, Option.bind_eq_some_iff, Option.pure_def,
    Option.some.injEq, Prod.mk.injEq, ensure_eq_some, Bool.and_eq_true, beq_iff_eq] at h
  obtain ⟨_, ⟨-, hrequest⟩, ⟨credential', trust'⟩, hresponse, requestSha256, hdigest, approved,
    happroval, _, hsame, rfl, rfl⟩ := h
  subst hsame
  obtain ⟨evidence, haccepted⟩ := TravelEnrollmentResponse.exists_accepted hresponse
  simp only [SignedTravelApproval.verifyBusiness, Option.bind_eq_bind,
    Option.bind_eq_some_iff] at happroval
  obtain ⟨target, htarget, happroval⟩ := happroval
  have htarget' := htarget
  simp only [BusinessDescriptor.verify, Option.bind_eq_bind, Option.bind_eq_some_iff,
    Option.pure_def, Option.some.injEq] at htarget'
  obtain ⟨_, -, grant, -, authority, -, _, -, service, hservice, rfl⟩ := htarget'
  have hid := List.find?_some hservice
  rw [beq_iff_eq] at hid
  refine ⟨⟨evidence, haccepted⟩, ?_⟩
  exact ⟨_, requestSha256, htarget, rfl, hid, hdigest, haccepted.bound hrequest happroval⟩

/-- What the approval covers of a response. -/
def content (codec : EnrollmentCodec) (self : BusinessTravelResponse) :
    BusinessTravelRequest × TravelContent :=
  (self.request, self.response.content codec)

def NoCollision (codec : EnrollmentCodec) (r r' : BusinessTravelResponse) : Prop :=
  (codec.sha256 (codec.businessTravelRequestJson r.request) =
    codec.sha256 (codec.businessTravelRequestJson r'.request) → r.request = r'.request) ∧
  r.response.NoCollision codec r'.response

/-- Two responses that validate and carry one approval payload have the same content. -/
theorem content_eq {r r' : BusinessTravelResponse} {root' : String} {now' : ℕ}
    (h : (r.validate codec root now).isSome) (h' : (r'.validate codec root' now').isSome)
    (hfree : r.NoCollision codec r') (hseal : codec.travelApproval r.approval.payloadHex =
      codec.travelApproval r'.approval.payloadHex) : r.content codec = r'.content codec := by
  obtain ⟨⟨credential, trust⟩, hvalid⟩ := Option.isSome_iff_exists.mp h
  obtain ⟨⟨credential', trust'⟩, hvalid'⟩ := Option.isSome_iff_exists.mp h'
  obtain ⟨⟨evidence, haccepted⟩, target, digest, -, -, -, hdigest, hbound⟩ :=
    accepted_and_bound hvalid
  obtain ⟨⟨evidence', haccepted'⟩, target', digest', -, -, -, hdigest', hbound'⟩ :=
    accepted_and_bound hvalid'
  have hsame := hbound.content_eq hbound' haccepted haccepted' hfree.2 hseal
  have hrequest : r.request = r'.request := by
    apply hfree.1
    rw [← payloadDigest_eq_some hdigest, ← payloadDigest_eq_some hdigest']
    exact hsame.1
  exact Prod.ext hrequest hsame.2

inductive Component where
  | request
  | innerRequest
  | descriptor
  | response
  | responsePart (part : ResponseComponent)
  | approval
deriving DecidableEq, Repr

/-- The response with one part of another. -/
def splice (component : Component) (r r' : BusinessTravelResponse) : BusinessTravelResponse :=
  match component with
  | .request => { r with request := r'.request }
  | .innerRequest => { r with request := { r.request with request := r'.request.request } }
  | .descriptor => { r with request := { r.request with descriptor := r'.request.descriptor } }
  | .response => { r with response := r'.response }
  | .responsePart part => { r with response := r.response.splice part r'.response }
  | .approval => { r with approval := r'.approval }

/-- Responses by the time they are validated at. -/
def format (codec : EnrollmentCodec) (root : String) :
    Splice.Format ℕ BusinessTravelResponse BusinessTravelRequest
      (BusinessTravelRequest × TravelContent) (Option TravelApproval) Component where
  valid now r := (r.validate codec root now).isSome
  distinct := NoCollision codec
  request := request
  content := content codec
  approval r := codec.travelApproval r.approval.payloadHex
  splice := splice
  approving := .approval

theorem format_binds (codec : EnrollmentCodec) (root : String) : (format codec root).Binds where
  content h h' hfree happroval := content_eq h h' hfree happroval
  request h := congrArg Prod.fst h
  splice {component _ _} h := by
    cases component
    case approval => exact absurd rfl h
    all_goals rfl
  spliceApproval := rfl
  spliceRequest := rfl

end BusinessTravelResponse

namespace ServiceClassTravelResponse

def Bound (codec : EnrollmentCodec) (root : String) (now : ℕ) (self : ServiceClassTravelResponse)
    (credential : TravelCredential) (trust : DeploymentTrust) : Prop :=
  ∃ requestSha256, validateClientLabel self.request.label = true ∧
    payloadDigest codec (codec.serviceClassTravelRequestJson self.request) = some requestSha256 ∧
    self.response.Bound codec root now self.request.request
      (self.request.descriptor.intent codec trust requestSha256) self.approval credential trust

theorem accepted_and_bound {self : ServiceClassTravelResponse}
    (h : self.validate codec root now = some (credential, trust)) :
    (∃ evidence, self.response.Accepted codec root now credential trust evidence) ∧
      self.Bound codec root now credential trust := by
  simp only [validate, Option.bind_eq_bind, Option.bind_eq_some_iff, Option.pure_def,
    Option.some.injEq, Prod.mk.injEq, ensure_eq_some, Bool.and_eq_true, beq_iff_eq] at h
  obtain ⟨_, ⟨⟨-, hlabel⟩, hrequest⟩, ⟨credential', trust'⟩, hresponse, requestSha256, hdigest,
    approved, happroval, _, hsame, rfl, rfl⟩ := h
  subst hsame
  obtain ⟨evidence, haccepted⟩ := TravelEnrollmentResponse.exists_accepted hresponse
  simp only [SignedTravelApproval.verifyServiceClass, Option.bind_eq_bind,
    Option.bind_eq_some_iff] at happroval
  obtain ⟨_, -, happroval⟩ := happroval
  refine ⟨⟨evidence, haccepted⟩, ?_⟩
  exact ⟨requestSha256, hlabel, hdigest, haccepted.bound hrequest happroval⟩

/-- What the approval covers of a response. -/
def content (codec : EnrollmentCodec) (self : ServiceClassTravelResponse) :
    ServiceClassTravelRequest × TravelContent :=
  (self.request, self.response.content codec)

def NoCollision (codec : EnrollmentCodec) (r r' : ServiceClassTravelResponse) : Prop :=
  (codec.sha256 (codec.serviceClassTravelRequestJson r.request) =
    codec.sha256 (codec.serviceClassTravelRequestJson r'.request) → r.request = r'.request) ∧
  r.response.NoCollision codec r'.response

theorem content_eq {r r' : ServiceClassTravelResponse} {root' : String} {now' : ℕ}
    (h : (r.validate codec root now).isSome) (h' : (r'.validate codec root' now').isSome)
    (hfree : r.NoCollision codec r') (hseal : codec.travelApproval r.approval.payloadHex =
      codec.travelApproval r'.approval.payloadHex) : r.content codec = r'.content codec := by
  obtain ⟨⟨credential, trust⟩, hvalid⟩ := Option.isSome_iff_exists.mp h
  obtain ⟨⟨credential', trust'⟩, hvalid'⟩ := Option.isSome_iff_exists.mp h'
  obtain ⟨⟨evidence, haccepted⟩, digest, -, hdigest, hbound⟩ := accepted_and_bound hvalid
  obtain ⟨⟨evidence', haccepted'⟩, digest', -, hdigest', hbound'⟩ := accepted_and_bound hvalid'
  have hsame := hbound.content_eq hbound' haccepted haccepted' hfree.2 hseal
  have hrequest : r.request = r'.request := by
    apply hfree.1
    rw [← payloadDigest_eq_some hdigest, ← payloadDigest_eq_some hdigest']
    exact hsame.1
  exact Prod.ext hrequest hsame.2

inductive Component where
  | request
  | innerRequest
  | descriptor
  | label
  | response
  | responsePart (part : ResponseComponent)
  | approval
deriving DecidableEq, Repr

/-- The response with one part of another. -/
def splice (component : Component) (r r' : ServiceClassTravelResponse) :
    ServiceClassTravelResponse :=
  match component with
  | .request => { r with request := r'.request }
  | .innerRequest => { r with request := { r.request with request := r'.request.request } }
  | .descriptor => { r with request := { r.request with descriptor := r'.request.descriptor } }
  | .label => { r with request := { r.request with label := r'.request.label } }
  | .response => { r with response := r'.response }
  | .responsePart part => { r with response := r.response.splice part r'.response }
  | .approval => { r with approval := r'.approval }

def format (codec : EnrollmentCodec) (root : String) :
    Splice.Format ℕ ServiceClassTravelResponse ServiceClassTravelRequest
      (ServiceClassTravelRequest × TravelContent) (Option TravelApproval) Component where
  valid now r := (r.validate codec root now).isSome
  distinct := NoCollision codec
  request := request
  content := content codec
  approval r := codec.travelApproval r.approval.payloadHex
  splice := splice
  approving := .approval

theorem format_binds (codec : EnrollmentCodec) (root : String) : (format codec root).Binds where
  content h h' hfree happroval := content_eq h h' hfree happroval
  request h := congrArg Prod.fst h
  splice {component _ _} h := by
    cases component
    case approval => exact absurd rfl h
    all_goals rfl
  spliceApproval := rfl
  spliceRequest := rfl

end ServiceClassTravelResponse

end FlowSplice
