import FlowSplice.Issuance.Envelope

/-! Enrollment requests of a new Home and what a global Home answers them with:
`flowsplice-enrollment/src/home.rs` and `business.rs`. -/
namespace FlowSplice

def homeEnrollmentVersion : ℕ := 1
def maxRequestAgeSecs : ℕ := 7 * 24 * 60 * 60
def maxValidDays : ℕ := 3650

inductive HomeEnrollmentProfile where
  | servingOnly
  | homeIssuer
  | globalIssuer
deriving DecidableEq, Repr

structure HomeEnrollmentRequest where
  version : ℕ := homeEnrollmentVersion
  requestId : Uuid
  nonce : String
  homeId : String
  createdAtUnixSecs : ℕ
  managementCsrPem : String
  businessCsrPem : String
deriving DecidableEq, Repr

structure HomeEnrollmentApproval where
  version : ℕ := homeEnrollmentVersion
  credentialId : Uuid
  authorityId : String
  profile : HomeEnrollmentProfile
  request : HomeEnrollmentRequest
  notBeforeUnixSecs : ℕ
  notAfterUnixSecs : ℕ
deriving DecidableEq, Repr

structure HomeIssuerBundle where
  managementCaKeyPem : String
  businessCaKeyPem : String
  homeAuthorityId : String
  homeAuthorityKeyPem : String
  globalAuthorityId : Option String := none
  globalAuthorityKeyPem : Option String := none
  homeEnrollmentAuthorityKeyPem : Option String := none
deriving DecidableEq, Repr

structure HomeEnrollmentResponse where
  version : ℕ := homeEnrollmentVersion
  approval : HomeEnrollmentApproval
  deploymentTrust : SignedDeploymentTrust
  managementCertificatePem : String
  businessCertificatePem : String
  signedEndpointCredential : SignedHomeEndpointCredential
  issuerBundle : Option HomeIssuerBundle := none
deriving DecidableEq, Repr

structure BusinessHomeRequest where
  version : ℕ := businessVersion
  objectType : String := "flowsplice.business_home_request"
  request : HomeEnrollmentRequest
  services : List BusinessService
deriving DecidableEq, Repr

structure BusinessHomeResponse where
  version : ℕ := businessVersion
  objectType : String := "flowsplice.business_home_response"
  request : BusinessHomeRequest
  response : HomeEnrollmentResponse
  grant : SignedHomeServiceGrant
deriving DecidableEq, Repr

inductive HomeRequestEnvelope where
  | business (request : BusinessHomeRequest)
  | legacy (request : HomeEnrollmentRequest)
deriving DecidableEq, Repr

/-- `deref`: the request in the envelope. -/
def HomeRequestEnvelope.request : HomeRequestEnvelope → HomeEnrollmentRequest
  | .business request => request.request
  | .legacy request => request

inductive HomeResponseEnvelope where
  | business (response : BusinessHomeResponse)
  | legacy (response : HomeEnrollmentResponse)
deriving DecidableEq, Repr

/-- `deref`: the response in the envelope. -/
def HomeResponseEnvelope.response : HomeResponseEnvelope → HomeEnrollmentResponse
  | .business response => response.response
  | .legacy response => response

end FlowSplice
