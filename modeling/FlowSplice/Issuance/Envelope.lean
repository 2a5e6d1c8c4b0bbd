import FlowSplice.Authorization.Credential

/-! Enrollment requests of a Travel and what a Home answers them with, alone or for one business:
`flowsplice-enrollment/src/lib.rs` and `business.rs`. -/
namespace FlowSplice

def enrollmentVersion : ℕ := 1

structure TravelEnrollmentRequest where
  version : ℕ := enrollmentVersion
  requestId : Uuid
  nonce : String
  travelId : String
  createdAtUnixSecs : ℕ
  managementCsrPem : String
  businessCsrPem : String
deriving DecidableEq, Repr

structure TravelEnrollmentApproval where
  version : ℕ := enrollmentVersion
  credentialId : Uuid
  authorityId : String
  scope : TravelCredentialScope
  request : TravelEnrollmentRequest
  notBeforeUnixSecs : ℕ
  notAfterUnixSecs : ℕ
deriving DecidableEq, Repr

structure TravelEnrollmentResponse where
  version : ℕ := enrollmentVersion
  approval : TravelEnrollmentApproval
  deploymentTrust : SignedDeploymentTrust
  homeEndpointCredential : Option SignedHomeEndpointCredential := none
  managementCertificatePem : String
  businessCertificatePem : String
  signedCredential : SignedTravelCredential
deriving DecidableEq, Repr

structure BusinessDescriptor where
  version : ℕ := businessVersion
  approvingHomeId : String
  endpoint : SignedHomeEndpointCredential
  grant : SignedHomeServiceGrant
  serviceId : String
deriving DecidableEq, Repr

structure ServiceClassDescriptor where
  version : ℕ := businessVersion
  approvingHomeId : String
  applicationProtocol : String
  protocol : ServiceProtocol
deriving DecidableEq, Repr

structure BusinessTravelRequest where
  version : ℕ := businessVersion
  objectType : String := "flowsplice.business_travel_request"
  request : TravelEnrollmentRequest
  descriptor : BusinessDescriptor
deriving DecidableEq, Repr

structure ServiceClassTravelRequest where
  version : ℕ := businessVersion
  objectType : String := "flowsplice.service_class_travel_request"
  request : TravelEnrollmentRequest
  descriptor : ServiceClassDescriptor
  label : String
deriving DecidableEq, Repr

/-- `SignedBusinessTravelApproval` and `SignedServiceClassApproval`. -/
structure SignedTravelApproval where
  authorityId : String
  payloadHex : String
  signatureHex : String
deriving DecidableEq, Repr

structure BusinessTravelResponse where
  version : ℕ := businessVersion
  objectType : String := "flowsplice.business_travel_response"
  request : BusinessTravelRequest
  response : TravelEnrollmentResponse
  approval : SignedTravelApproval
deriving DecidableEq, Repr

structure ServiceClassTravelResponse where
  version : ℕ := businessVersion
  objectType : String := "flowsplice.service_class_travel_response"
  request : ServiceClassTravelRequest
  response : TravelEnrollmentResponse
  approval : SignedTravelApproval
deriving DecidableEq, Repr

inductive TravelRequestEnvelope where
  | serviceClass (request : ServiceClassTravelRequest)
  | business (request : BusinessTravelRequest)
  | legacy (request : TravelEnrollmentRequest)
deriving DecidableEq, Repr

/-- `deref`: the request in the envelope. -/
def TravelRequestEnvelope.request : TravelRequestEnvelope → TravelEnrollmentRequest
  | .serviceClass request => request.request
  | .business request => request.request
  | .legacy request => request

inductive TravelResponseEnvelope where
  | serviceClass (response : ServiceClassTravelResponse)
  | business (response : BusinessTravelResponse)
  | legacy (response : TravelEnrollmentResponse)
deriving DecidableEq, Repr

/-- `deref`: the response in the envelope. -/
def TravelResponseEnvelope.response : TravelResponseEnvelope → TravelEnrollmentResponse
  | .serviceClass response => response.response
  | .business response => response.response
  | .legacy response => response

end FlowSplice
