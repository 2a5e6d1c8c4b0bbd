import FlowSplice.Lib.Keyed
import FlowSplice.Authorization.Server

/-! What a verified authorization answers: `VerifiedAuthorization::authorize_*` of
`flowsplice-core/src/authorization.rs`. -/
namespace FlowSplice

inductive Role where
  | server
  | relay
  | home
  | travel
deriving DecidableEq, Repr

/-- What `peer_identity` reads from a certificate. -/
structure PeerIdentity where
  role : Role
  id : String
  spkiSha256 : String
  notBeforeUnixSecs : ℕ
  notAfterUnixSecs : ℕ
deriving DecidableEq, Repr

def PeerIdentity.activeAt (identity : PeerIdentity) (now : ℕ) : Bool :=
  decide (identity.notBeforeUnixSecs ≤ now) && decide (now < identity.notAfterUnixSecs)

/-- `require_peer`. -/
def requirePeer (identity : PeerIdentity) (role : Role) (expectedId : Option String)
    (allowedSpki : List String) : Bool :=
  identity.role == role && expectedId.all (· == identity.id) &&
    (allowedSpki.isEmpty || allowedSpki.any (eqIgnoreAsciiCase · identity.spkiSha256))

namespace TravelCredentialScope

def allowsHome (scope : TravelCredentialScope) (homeId : String) : Bool :=
  match scope with
  | .global | .serviceClass _ _ => true
  | .home allowedHome | .service allowedHome _ _ => allowedHome == homeId

/-- A service class is not admitted without the signed metadata of the Home. -/
def allowsService (scope : TravelCredentialScope) (homeId serviceId : String)
    (protocol : ServiceProtocol) : Bool :=
  match scope with
  | .global => true
  | .serviceClass _ _ => false
  | .home allowedHome => allowedHome == homeId
  | .service allowedHome allowedService allowedProtocol =>
    allowedHome == homeId && allowedService == serviceId && allowedProtocol == protocol

def allowsBusinessService (scope : TravelCredentialScope) (homeId serviceId : String)
    (protocol : ServiceProtocol) (business : Option BusinessService) : Bool :=
  match scope with
  | .serviceClass applicationProtocol allowed =>
    business.any fun service =>
      service.serviceId == serviceId && service.protocol == protocol && protocol == allowed &&
        service.applicationProtocol == applicationProtocol
  | scope => scope.allowsService homeId serviceId protocol

/-- Whoever is allowed a service is allowed its Home. -/
theorem allowsHome_of_allowsBusinessService {scope : TravelCredentialScope}
    {homeId serviceId : String} {protocol : ServiceProtocol} {business : Option BusinessService}
    (h : scope.allowsBusinessService homeId serviceId protocol business = true) :
    scope.allowsHome homeId = true := by
  cases scope with
  | global => rfl
  | serviceClass applicationProtocol allowed => rfl
  | home allowedHome => exact h
  | service allowedHome allowedService allowedProtocol =>
    simp only [allowsBusinessService, allowsService, Bool.and_eq_true] at h
    exact h.1.1

end TravelCredentialScope

namespace TravelCredential
variable (credential : TravelCredential)

def allowsHome (homeId : String) : Bool := credential.scope.allowsHome homeId

def allowsBusinessService (homeId serviceId : String) (protocol : ServiceProtocol)
    (business : Option BusinessService) : Bool :=
  credential.scope.allowsBusinessService homeId serviceId protocol business

end TravelCredential

namespace VerifiedAuthorization
variable (authorization : VerifiedAuthorization) (identity : PeerIdentity) (now : ℕ)

def authorizeAll (index : List ((String × List UInt8) × Uuid)) :
    Option (List TravelCredential) :=
  let credentialIds :=
    (index.filter (·.1 == indexKey identity.id identity.spkiSha256)).map (·.2)
  if credentialIds.isEmpty || !identity.activeAt now then none
  else
    ((credentialIds.filter (authorization.isActive · now)).mapM authorization.credential).filter
      (!·.isEmpty)

def authorizeManagementAll : Option (List TravelCredential) :=
  authorization.authorizeAll identity now authorization.managementIndex

def authorizeManagement : Option TravelCredential :=
  (authorization.authorizeManagementAll identity now).bind (·.head?)

def authorizeManagementForHome (homeId : String) : Option TravelCredential :=
  (authorization.authorizeManagementAll identity now).bind fun active =>
    Keyed.maxByKey (·.notAfterUnixSecs) (active.filter (·.allowsHome homeId))

def authorizeBusiness : Option TravelCredential :=
  (authorization.authorizeAll identity now authorization.businessIndex).bind (·.head?)

def authorizeBusinessCredential (credentialId : Uuid) : Option TravelCredential :=
  (authorization.authorizeAll identity now authorization.businessIndex).bind
    (·.find? (·.credentialId == credentialId))

end VerifiedAuthorization

/-! What `verify` accepts. -/

/-- An authority that the deployment trusts, or that a verified Home endpoint delegates to. -/
def DeploymentTrust.Trusts (codec : Codec) (trust : DeploymentTrust)
    (endpoints : List SignedHomeEndpointCredential) (authority : TrustedTravelAuthority) : Prop :=
  authority ∈ trust.travelAuthorities ∨
    ∃ signed ∈ endpoints, ∃ endpoint, signed.verifyTrustBinding codec trust = some endpoint ∧
      authority ∈ endpoint.delegatedTravelAuthorities

private theorem foldlM_delegations {delegated authorities authorities' : List TrustedTravelAuthority}
    (h : delegated.foldlM (fun authorities authority =>
      if (authorities.map (·.id)).contains authority.id then none
      else some (authorities ++ [authority])) authorities = some authorities') :
    authorities' = authorities ++ delegated := by
  induction delegated generalizing authorities with
  | nil =>
    have heq : authorities = authorities' := Option.some.inj h
    simp [heq]
  | cons authority delegated ih =>
    rw [List.foldlM_cons] at h
    obtain ⟨next, hnext, h⟩ := Option.bind_eq_some_iff.mp h
    split_ifs at hnext
    have heq : authorities ++ [authority] = next := Option.some.inj hnext
    rw [ih h, ← heq, List.append_assoc, List.singleton_append]

private theorem mem_foldlM_addDelegations {codec : Codec} {trust : DeploymentTrust}
    {endpoints : List SignedHomeEndpointCredential}
    {authorities authorities' : List TrustedTravelAuthority}
    (h : endpoints.foldlM (trust.addDelegations codec) authorities = some authorities')
    (authority : TrustedTravelAuthority) :
    authority ∈ authorities' ↔ authority ∈ authorities ∨
      ∃ signed ∈ endpoints, ∃ endpoint, signed.verifyTrustBinding codec trust = some endpoint ∧
        authority ∈ endpoint.delegatedTravelAuthorities := by
  induction endpoints generalizing authorities with
  | nil =>
    have heq : authorities = authorities' := Option.some.inj h
    simp [heq]
  | cons signed endpoints ih =>
    rw [List.foldlM_cons] at h
    obtain ⟨next, hnext, h⟩ := Option.bind_eq_some_iff.mp h
    obtain ⟨endpoint, hendpoint, hadd⟩ := Option.bind_eq_some_iff.mp hnext
    have heq : next = authorities ++ endpoint.delegatedTravelAuthorities :=
      foldlM_delegations hadd
    rw [ih h, heq]
    simp [hendpoint, or_assoc]

/-- The authorities are those trusted, each under an id of its own. -/
theorem mem_travelAuthoritiesWithHomeDelegations {codec : Codec} {trust : DeploymentTrust}
    {endpoints : List SignedHomeEndpointCredential} {authorities : List TrustedTravelAuthority}
    (h : trust.travelAuthoritiesWithHomeDelegations codec endpoints = some authorities)
    (authority : TrustedTravelAuthority) :
    authority ∈ authorities ↔ trust.Trusts codec endpoints authority := by
  have hfold := (Option.filter_eq_some_iff.mp h).1
  exact mem_foldlM_addDelegations hfold authority

namespace SignedTravelCredential

/-- What a signed credential says is signed by this authority, and within its scope. -/
structure SignedBy (codec : AuthorizationCodec) (signed : SignedTravelCredential)
    (authority : TrustedTravelAuthority) (credential : TravelCredential) : Prop where
  payload : codec.credential signed.payloadHex = some credential
  valid : credential.validate = true
  key : validP256PublicKey authority.publicKey = true
  signature : codec.verifies authority.publicKey signed.payloadHex signed.signatureHex = true
  envelope : signed.authorityId = authority.id
  authorityId : credential.authorityId = authority.id
  epoch : credential.authorityEpoch = authority.epoch
  scope : authority.validateScope credential.scope = true

theorem verify_iff {codec : AuthorizationCodec} {signed : SignedTravelCredential}
    {authority : TrustedTravelAuthority} {credential : TravelCredential} :
    signed.verify codec authority = some credential ↔ signed.SignedBy codec authority credential := by
  constructor
  · intro h
    unfold verify at h
    split_ifs at h with hid
    obtain ⟨h, hok⟩ := Option.filter_eq_some_iff.mp h
    unfold verifyPublicKey at h
    split_ifs at h with hkey
    obtain ⟨hpayload, hvalid⟩ := Option.filter_eq_some_iff.mp h
    simp only [Bool.and_eq_true, beq_iff_eq] at hok hkey
    exact ⟨hpayload, hvalid, hkey.1, hkey.2, hid, hok.1.1.trans hid, hok.1.2, hok.2⟩
  · intro h
    have hkey : verifyPublicKey codec signed authority.publicKey = some credential := by
      unfold verifyPublicKey
      rw [if_pos (by simp [h.key, h.signature]), h.payload]
      simp [h.valid]
    unfold verify
    rw [if_pos h.envelope, hkey]
    simp [h.envelope, h.authorityId, h.epoch, h.scope]

end SignedTravelCredential

/-- The snapshot has the credential, signed by an authority that is trusted with it. -/
def TravelAuthorizationSnapshot.Backs (snapshot : TravelAuthorizationSnapshot)
    (codec : AuthorizationCodec) (trust : DeploymentTrust) (credential : TravelCredential) : Prop :=
  credential.deploymentId = trust.deploymentId ∧
    ∃ signed ∈ snapshot.credentials, ∃ authority,
      trust.Trusts codec.toCodec snapshot.homeEndpointCredentials authority ∧
      signed.SignedBy codec authority credential

namespace VerifiedAuthorization

/-- A signed credential that `verify` takes for this one. -/
def Takes (codec : AuthorizationCodec) (authorities : List TrustedTravelAuthority)
    (deploymentId : String) (signed : SignedTravelCredential) (credential : TravelCredential) :
    Prop :=
  credential.deploymentId = deploymentId ∧
    ∃ authority ∈ authorities, signed.SignedBy codec authority credential

variable {codec : AuthorizationCodec} {authorities : List TrustedTravelAuthority}
  {deploymentId : String} {snapshot : TravelAuthorizationSnapshot}
  {authorization : VerifiedAuthorization}

theorem Takes.unique {signed : SignedTravelCredential} {credential other : TravelCredential}
    (h : Takes codec authorities deploymentId signed credential)
    (h' : Takes codec authorities deploymentId signed other) : credential = other := by
  obtain ⟨-, _, -, hs⟩ := h
  obtain ⟨-, _, -, hs'⟩ := h'
  exact Option.some.inj (hs.payload.symm.trans hs'.payload)

private theorem addCredential_spec {credentials next : List TravelCredential}
    {signed : SignedTravelCredential}
    (h : addCredential codec authorities deploymentId credentials signed = some next) :
    ∃ credential, Takes codec authorities deploymentId signed credential ∧
      credential.credentialId ∉ credentials.map (·.credentialId) ∧
      next = credentials ++ [credential] := by
  obtain ⟨credential, hfound, h⟩ := Option.bind_eq_some_iff.mp h
  obtain ⟨authority, hauthority, hverify⟩ := Option.bind_eq_some_iff.mp hfound
  split_ifs at h with hok
  have hsigned := SignedTravelCredential.verify_iff.mp hverify
  have hmem := List.mem_of_find?_eq_some hauthority
  exact ⟨credential, ⟨hok.1, authority, hmem, hsigned⟩, hok.2, (Option.some.inj h).symm⟩

private theorem foldlM_addCredential {signed : List SignedTravelCredential}
    {credentials next : List TravelCredential} (hn : (credentials.map (·.credentialId)).Nodup)
    (h : signed.foldlM (addCredential codec authorities deploymentId) credentials = some next) :
    (next.map (·.credentialId)).Nodup ∧ ∀ credential, credential ∈ next ↔
      credential ∈ credentials ∨ ∃ s ∈ signed, Takes codec authorities deploymentId s credential := by
  induction signed generalizing credentials with
  | nil =>
    have heq : credentials = next := Option.some.inj h
    exact heq ▸ ⟨hn, fun credential => by simp⟩
  | cons signed rest ih =>
    rw [List.foldlM_cons] at h
    obtain ⟨_, hadd, h⟩ := Option.bind_eq_some_iff.mp h
    obtain ⟨credential, htakes, hnew, rfl⟩ := addCredential_spec hadd
    have hn' : ((credentials ++ [credential]).map (·.credentialId)).Nodup := by
      rw [List.map_append, List.nodup_append]
      refine ⟨hn, List.nodup_singleton _, fun id hid other hother heq => hnew ?_⟩
      rw [List.map_singleton, List.mem_singleton] at hother
      rwa [heq, hother] at hid
    obtain ⟨hnodup, hmem⟩ := ih hn' h
    refine ⟨hnodup, fun other => ?_⟩
    have hhead : other = credential ↔ Takes codec authorities deploymentId signed other :=
      ⟨fun heq => heq ▸ htakes, fun hother => hother.unique htakes⟩
    rw [hmem, List.mem_append, List.mem_singleton, hhead]
    simp [or_assoc]

/-- What `verify` builds: the credentials of the snapshot and the two indexes over them. -/
structure Covers (codec : AuthorizationCodec) (authorities : List TrustedTravelAuthority)
    (deploymentId : String) (snapshot : TravelAuthorizationSnapshot)
    (authorization : VerifiedAuthorization) : Prop where
  nodup : (authorization.credentials.map (·.credentialId)).Nodup
  mem : ∀ credential, credential ∈ authorization.credentials ↔
    ∃ signed ∈ snapshot.credentials, Takes codec authorities deploymentId signed credential
  management : authorization.managementIndex = authorization.credentials.map fun credential =>
    (indexKey credential.travelId credential.managementSpkiSha256, credential.credentialId)
  business : authorization.businessIndex = authorization.credentials.map fun credential =>
    (indexKey credential.travelId credential.businessSpkiSha256, credential.credentialId)

theorem covers_of_verify (h : verify codec snapshot authorities deploymentId = some authorization) :
    Covers codec authorities deploymentId snapshot authorization := by
  unfold verify at h
  split_ifs at h
  obtain ⟨credentials, hfold, h⟩ := Option.bind_eq_some_iff.mp h
  obtain ⟨revoked, -, rfl⟩ := Option.map_eq_some_iff.mp h
  obtain ⟨hnodup, hmem⟩ := foldlM_addCredential (by simp) hfold
  exact ⟨hnodup, fun credential => by simpa using hmem credential, rfl, rfl⟩

/-- The credential holds for an identity now. -/
def holds (authorization : VerifiedAuthorization) (identity : PeerIdentity) (now : ℕ)
    (spki : TravelCredential → String) (credential : TravelCredential) : Bool :=
  credential.travelId == identity.id && eqIgnoreAsciiCase (spki credential) identity.spkiSha256 &&
    !decide (credential.credentialId ∈ authorization.revokedCredentials) && credential.activeAt now

variable {identity : PeerIdentity} {now : ℕ} {spki : TravelCredential → String}
  {index : List ((String × List UInt8) × Uuid)}

theorem isActive_of_mem (hn : (authorization.credentials.map (·.credentialId)).Nodup)
    {credential : TravelCredential} (h : credential ∈ authorization.credentials) :
    authorization.credential credential.credentialId = some credential ∧
      authorization.isActive credential.credentialId now =
        (!decide (credential.credentialId ∈ authorization.revokedCredentials) &&
          credential.activeAt now) := by
  have hfind : authorization.credential credential.credentialId = some credential :=
    (Keyed.find_iff hn).mpr ⟨h, rfl⟩
  exact ⟨hfind, by simp [isActive, hfind]⟩

/-- A query over an index that covers the credentials answers with those that hold. -/
theorem authorizeAll_eq (hn : (authorization.credentials.map (·.credentialId)).Nodup)
    (hindex : index = authorization.credentials.map fun credential =>
      (indexKey credential.travelId (spki credential), credential.credentialId)) :
    authorization.authorizeAll identity now index =
      if identity.activeAt now then
        (some (authorization.credentials.filter (authorization.holds identity now spki))).filter
          (!·.isEmpty)
      else none := by
  have hbound : (index.filter (·.1 == indexKey identity.id identity.spkiSha256)).map (·.2) =
      (authorization.credentials.filter fun credential => credential.travelId == identity.id &&
        eqIgnoreAsciiCase (spki credential) identity.spkiSha256).map (·.credentialId) := by
    subst hindex
    rw [List.filter_map, List.map_map]
    rfl
  have hactive : ((authorization.credentials.filter fun credential =>
      credential.travelId == identity.id &&
        eqIgnoreAsciiCase (spki credential) identity.spkiSha256).map (·.credentialId)).filter
          (authorization.isActive · now) =
      (authorization.credentials.filter (authorization.holds identity now spki)).map
        (·.credentialId) := by
    rw [List.filter_map, List.filter_filter]
    refine congrArg (List.map _) (List.filter_congr fun credential hm => ?_)
    simp only [Function.comp_apply, (isActive_of_mem hn hm).2, holds]
    ac_rfl
  have hfind : ∀ credential ∈ authorization.credentials.filter
      (authorization.holds identity now spki),
      authorization.credential credential.credentialId = some credential := by
    intro credential hm
    have hactive := @isActive_of_mem _ now hn credential (List.mem_of_mem_filter hm)
    exact hactive.1
  unfold authorizeAll
  simp only [hbound, hactive, Keyed.mapM_key hfind]
  by_cases hidentity : identity.activeAt now = true
  · rw [if_pos hidentity]
    split_ifs with hempty
    · have hnone : authorization.credentials.filter (authorization.holds identity now spki) = [] := by
        rw [List.filter_eq_nil_iff]
        intro credential hm hholds
        simp only [hidentity, Bool.not_true, Bool.or_false, List.isEmpty_iff, List.map_eq_nil_iff,
          List.filter_eq_nil_iff] at hempty
        simp only [holds, Bool.and_eq_true] at hholds
        exact hempty credential hm (by simp [hholds.1.1])
      rw [hnone]
      rfl
    · rfl
  · simp [hidentity]

/-- The answers of a query as a list, empty when there is none. -/
theorem mem_authorizeAll (hn : (authorization.credentials.map (·.credentialId)).Nodup)
    (hindex : index = authorization.credentials.map fun credential =>
      (indexKey credential.travelId (spki credential), credential.credentialId))
    {credential : TravelCredential} :
    credential ∈ (authorization.authorizeAll identity now index).getD [] ↔
      identity.activeAt now = true ∧ credential ∈ authorization.credentials ∧
        authorization.holds identity now spki credential = true := by
  rw [authorizeAll_eq hn hindex]
  by_cases hidentity : identity.activeAt now = true
  · rw [if_pos hidentity, Option.filter_some]
    split_ifs with hempty
    · simp [hidentity]
    · simp only [Bool.not_eq_true', Bool.not_eq_false, List.isEmpty_iff] at hempty
      have hnone := List.filter_eq_nil_iff.mp hempty
      simpa [hidentity] using hnone credential
  · simp [hidentity]

theorem eq_filter_of_authorizeAll
    (hn : (authorization.credentials.map (·.credentialId)).Nodup)
    (hindex : index = authorization.credentials.map fun credential =>
      (indexKey credential.travelId (spki credential), credential.credentialId))
    {active : List TravelCredential}
    (h : authorization.authorizeAll identity now index = some active) :
    active = authorization.credentials.filter (authorization.holds identity now spki) := by
  rw [authorizeAll_eq hn hindex] at h
  split_ifs at h
  exact (Option.some.inj (Option.filter_eq_some_iff.mp h).1).symm

/-- Whatever the index, a credential that answers a query is active. -/
theorem isActive_of_authorizeBusinessCredential {credentialId : Uuid}
    {credential : TravelCredential}
    (h : authorization.authorizeBusinessCredential identity now credentialId = some credential) :
    credential.credentialId = credentialId ∧ authorization.isActive credentialId now = true := by
  obtain ⟨active, hactive, hfind⟩ := Option.bind_eq_some_iff.mp h
  have hid : credential.credentialId = credentialId := by simpa using List.find?_some hfind
  unfold authorizeAll at hactive
  dsimp only at hactive
  split_ifs at hactive
  have hmapM := (Option.filter_eq_some_iff.mp hactive).1
  obtain ⟨id, hm, hcredential⟩ := Keyed.mem_of_mapM hmapM (List.mem_of_find?_eq_some hfind)
  have hsame : credential.credentialId = id := by simpa using List.find?_some hcredential
  have hok : authorization.isActive id now = true := (List.mem_filter.mp hm).2
  rw [← hsame, hid] at hok
  exact ⟨hid, hok⟩

theorem authorizeBusinessCredential_iff
    (hn : (authorization.credentials.map (·.credentialId)).Nodup)
    (hindex : authorization.businessIndex = authorization.credentials.map fun credential =>
      (indexKey credential.travelId credential.businessSpkiSha256, credential.credentialId))
    {credentialId : Uuid} {credential : TravelCredential} :
    authorization.authorizeBusinessCredential identity now credentialId = some credential ↔
      credential ∈
        (authorization.authorizeAll identity now authorization.businessIndex).getD [] ∧
      credential.credentialId = credentialId := by
  unfold authorizeBusinessCredential
  cases hall : authorization.authorizeAll identity now authorization.businessIndex with
  | none => simp
  | some active =>
    have hnodup : (active.map (·.credentialId)).Nodup := by
      rw [eq_filter_of_authorizeAll hn hindex hall]
      exact hn.sublist (List.filter_sublist.map _)
    simpa using Keyed.find_iff hnodup

end VerifiedAuthorization

/-- The snapshot entitles an identity to a credential now: the credential is backed and not
revoked, is inside its validity, and binds this identity. -/
structure TravelAuthorizationSnapshot.Entitles (snapshot : TravelAuthorizationSnapshot)
    (codec : AuthorizationCodec) (trust : DeploymentTrust) (identity : PeerIdentity) (now : ℕ)
    (spki : TravelCredential → String) (credential : TravelCredential) : Prop where
  backed : snapshot.Backs codec trust credential
  unrevoked : credential.credentialId ∉ snapshot.revoked
  active : credential.activeAt now = true
  travel : credential.travelId = identity.id
  spki : eqIgnoreAsciiCase (spki credential) identity.spkiSha256 = true

namespace VerifiedAuthorization
variable {codec : AuthorizationCodec} {trust : DeploymentTrust}
  {authorities : List TrustedTravelAuthority} {snapshot : TravelAuthorizationSnapshot}
  {authorization : VerifiedAuthorization} {identity : PeerIdentity} {now : ℕ}

theorem backs_iff_mem
    (ha : trust.travelAuthoritiesWithHomeDelegations codec.toCodec
      snapshot.homeEndpointCredentials = some authorities)
    (hv : verify codec snapshot authorities trust.deploymentId = some authorization)
    {credential : TravelCredential} :
    snapshot.Backs codec trust credential ↔ credential ∈ authorization.credentials := by
  rw [(covers_of_verify hv).mem]
  simp only [TravelAuthorizationSnapshot.Backs, Takes,
    mem_travelAuthoritiesWithHomeDelegations ha]
  constructor
  · rintro ⟨hd, signed, hs, authority, hsigned⟩
    exact ⟨signed, hs, hd, authority, hsigned⟩
  · rintro ⟨signed, hs, hd, authority, hsigned⟩
    exact ⟨hd, signed, hs, authority, hsigned⟩

/-- A query answers with what the snapshot entitles to, and with all of it. -/
theorem mem_authorizeAll_iff
    (ha : trust.travelAuthoritiesWithHomeDelegations codec.toCodec
      snapshot.homeEndpointCredentials = some authorities)
    (hv : verify codec snapshot authorities trust.deploymentId = some authorization)
    {spki : TravelCredential → String} {index : List ((String × List UInt8) × Uuid)}
    (hindex : index = authorization.credentials.map fun credential =>
      (indexKey credential.travelId (spki credential), credential.credentialId))
    {credential : TravelCredential} :
    credential ∈ (authorization.authorizeAll identity now index).getD [] ↔
      identity.activeAt now = true ∧
        snapshot.Entitles codec trust identity now spki credential := by
  have hrevoked : authorization.revokedCredentials = snapshot.revoked := (verify_spec hv).2.2.2
  rw [mem_authorizeAll (covers_of_verify hv).nodup hindex, ← backs_iff_mem ha hv]
  simp only [holds, Bool.and_eq_true, beq_iff_eq, Bool.not_eq_true', decide_eq_false_iff_not,
    hrevoked]
  constructor
  · rintro ⟨hi, hb, ⟨⟨ht, hs⟩, hr⟩, hact⟩
    exact ⟨hi, hb, hr, hact, ht, hs⟩
  · rintro ⟨hi, hb, hr, hact, ht, hs⟩
    exact ⟨hi, hb, ⟨⟨ht, hs⟩, hr⟩, hact⟩

/-- An answer is one of those allowed, and there is one when any is allowed. -/
def Selects (answer : Option TravelCredential) (allowed : TravelCredential → Prop) : Prop :=
  (∀ credential, answer = some credential → allowed credential) ∧
    ((∃ credential, allowed credential) → ∃ credential, answer = some credential)

private theorem selects_head {answers : Option (List TravelCredential)}
    {allowed : TravelCredential → Prop}
    (h : ∀ credential, credential ∈ answers.getD [] ↔ allowed credential) :
    Selects (answers.bind (·.head?)) allowed := by
  constructor
  · intro credential hc
    obtain ⟨active, rfl, hhead⟩ := Option.bind_eq_some_iff.mp hc
    exact (h credential).mp (List.mem_of_mem_head? hhead)
  · rintro ⟨credential, hc⟩
    have hm := (h credential).mpr hc
    cases answers with
    | none => simp at hm
    | some active =>
      cases active with
      | nil => simp at hm
      | cons first rest => exact ⟨first, rfl⟩

private theorem selects_filter {answers : Option (List TravelCredential)}
    {allowed : TravelCredential → Prop} {p : TravelCredential → Bool}
    {pick : List TravelCredential → Option TravelCredential}
    (hpick : ∀ l credential, pick l = some credential → credential ∈ l)
    (hnone : ∀ l, pick l = none → l = [])
    (h : ∀ credential, credential ∈ answers.getD [] ↔ allowed credential) :
    Selects (answers.bind fun active => pick (active.filter p))
      (fun credential => allowed credential ∧ p credential = true) := by
  constructor
  · intro credential hc
    obtain ⟨active, rfl, hsome⟩ := Option.bind_eq_some_iff.mp hc
    obtain ⟨hm, hp⟩ := List.mem_filter.mp (hpick _ _ hsome)
    exact ⟨(h credential).mp hm, hp⟩
  · rintro ⟨credential, hc, hp⟩
    have hm := (h credential).mpr hc
    cases answers with
    | none => simp at hm
    | some active =>
      cases hsome : pick (active.filter p) with
      | none =>
        have hempty := hnone _ hsome
        have hmem : credential ∈ active.filter p := List.mem_filter.mpr ⟨hm, hp⟩
        simp [hempty] at hmem
      | some found => exact ⟨found, hsome⟩

/-- Every query answers with credentials that the snapshot entitles the identity to, and misses
none of them, as long as the certificate of the identity is valid. -/
theorem authorize_iff
    (ha : trust.travelAuthoritiesWithHomeDelegations codec.toCodec
      snapshot.homeEndpointCredentials = some authorities)
    (hv : verify codec snapshot authorities trust.deploymentId = some authorization)
    (identity : PeerIdentity) (now : ℕ) :
    let management (credential : TravelCredential) : Prop := identity.activeAt now = true ∧
      snapshot.Entitles codec trust identity now (·.managementSpkiSha256) credential
    let business (credential : TravelCredential) : Prop := identity.activeAt now = true ∧
      snapshot.Entitles codec trust identity now (·.businessSpkiSha256) credential
    (∀ credential, credential ∈ (authorization.authorizeManagementAll identity now).getD [] ↔
      management credential) ∧
    Selects (authorization.authorizeManagement identity now) management ∧
    (∀ homeId, Selects (authorization.authorizeManagementForHome identity now homeId)
      fun credential => management credential ∧ credential.allowsHome homeId = true) ∧
    Selects (authorization.authorizeBusiness identity now) business ∧
    ∀ credentialId credential,
      authorization.authorizeBusinessCredential identity now credentialId = some credential ↔
        business credential ∧ credential.credentialId = credentialId := by
  intro management business
  have hcovers := covers_of_verify hv
  have hmanagement : ∀ credential,
      credential ∈ (authorization.authorizeManagementAll identity now).getD [] ↔
        management credential := fun _ => mem_authorizeAll_iff ha hv hcovers.management
  have hbusiness : ∀ credential, credential ∈
      (authorization.authorizeAll identity now authorization.businessIndex).getD [] ↔
        business credential := fun _ => mem_authorizeAll_iff ha hv hcovers.business
  refine ⟨hmanagement, selects_head hmanagement, fun homeId => ?_, selects_head hbusiness,
    fun credentialId credential => ?_⟩
  · exact selects_filter (fun _ _ => Keyed.maxByKey_mem)
      (fun _ h => Keyed.maxByKey_eq_none.mp h) hmanagement
  · rw [← hbusiness]
    exact authorizeBusinessCredential_iff hcovers.nodup hcovers.business

end VerifiedAuthorization

/-! A Travel with a credential of a Home authority and one of a Global authority. -/

def queryServer : ServerConfig := { sampleServer with
  trust := { sampleDeployment with travelAuthorities :=
    [.home "authority-1" 1 "home-1" (sampleKey 'b'),
      .global "authority-2" 1 "home-1" (sampleKey 'c')] }
  codec := { sampleServer.codec with
    credential := fun payloadHex =>
      if payloadHex = "c1" then some sampleCredential
      else if payloadHex = "c2" then
        some { sampleCredential with
          credentialId := 2, authorityId := "authority-2", scope := .global }
      else none } }

def querySnapshot : TravelAuthorizationSnapshot where
  generation := 2
  credentials := [⟨"authority-1", "c1", "b"⟩, ⟨"authority-2", "c2", "c"⟩]

/-- Its certificate ends long before the credentials do. -/
def queryIdentity : PeerIdentity where
  role := .travel
  id := "travel-1"
  spkiSha256 := samplePin '3'
  notBeforeUnixSecs := 1
  notAfterUnixSecs := 2000

/-- The scopes of the credentials that an identity is answered with. -/
def queryScopes (authorization : VerifiedAuthorization) (identity : PeerIdentity) (now : ℕ) :
    List TravelCredentialScope :=
  ((authorization.authorizeManagementAll identity now).getD []).map (·.scope)

private theorem querySnapshot_verifies : ∃ authorities authorization,
    queryServer.trust.travelAuthoritiesWithHomeDelegations queryServer.codec.toCodec
      querySnapshot.homeEndpointCredentials = some authorities ∧
    VerifiedAuthorization.verify queryServer.codec querySnapshot authorities
      queryServer.trust.deploymentId = some authorization ∧
    queryScopes authorization queryIdentity 1500 = [.home "home-1", .global] ∧
    queryScopes authorization queryIdentity 3000 = [] ∧
    queryScopes authorization { queryIdentity with notAfterUnixSecs := 9000 } 3000 =
      [.home "home-1", .global] := by
  have hrun : ((queryServer.trust.travelAuthoritiesWithHomeDelegations queryServer.codec.toCodec
      querySnapshot.homeEndpointCredentials).bind fun authorities =>
        (VerifiedAuthorization.verify queryServer.codec querySnapshot authorities
          queryServer.trust.deploymentId).map fun authorization =>
            (queryScopes authorization queryIdentity 1500,
              queryScopes authorization queryIdentity 3000,
              queryScopes authorization { queryIdentity with notAfterUnixSecs := 9000 } 3000)) =
      some ([.home "home-1", .global], [], [.home "home-1", .global]) := by
    decide +kernel
  obtain ⟨authorities, ha, hrun⟩ := Option.bind_eq_some_iff.mp hrun
  obtain ⟨authorization, hv, hscopes⟩ := Option.map_eq_some_iff.mp hrun
  simp only [Prod.mk.injEq] at hscopes
  exact ⟨authorities, authorization, ha, hv, hscopes⟩

open VerifiedAuthorization in
theorem authorize_iff_sample : ∃ authorization : VerifiedAuthorization,
    queryScopes authorization queryIdentity 1500 = [.home "home-1", .global] ∧
    (∀ credential,
      credential ∈ (authorization.authorizeManagementAll queryIdentity 1500).getD [] ↔
        queryIdentity.activeAt 1500 = true ∧ querySnapshot.Entitles queryServer.codec
          queryServer.trust queryIdentity 1500 (·.managementSpkiSha256) credential) := by
  obtain ⟨authorities, authorization, ha, hv, hscopes, -, -⟩ := querySnapshot_verifies
  exact ⟨authorization, hscopes, (authorize_iff ha hv queryIdentity 1500).1⟩

/-- A query misses what the snapshot entitles to once the certificate has expired, and a Global
authority signs for every Home. -/
theorem not_authorize_iff : ∃ authorities authorization,
    queryServer.trust.travelAuthoritiesWithHomeDelegations queryServer.codec.toCodec
      querySnapshot.homeEndpointCredentials = some authorities ∧
    VerifiedAuthorization.verify queryServer.codec querySnapshot authorities
      queryServer.trust.deploymentId = some authorization ∧
    (¬ ∀ credential, querySnapshot.Entitles queryServer.codec queryServer.trust queryIdentity 3000
        (·.managementSpkiSha256) credential →
      credential ∈ (authorization.authorizeManagementAll queryIdentity 3000).getD []) ∧
    ¬ ∀ credential ∈ (authorization.authorizeManagementAll queryIdentity 1500).getD [],
      ∃ signed ∈ querySnapshot.credentials, ∃ authority,
        signed.SignedBy queryServer.codec authority credential ∧
        credential.scope.homeId = authority.homeId := by
  obtain ⟨authorities, authorization, ha, hv, hscopes, hexpired, hrenewed⟩ :=
    querySnapshot_verifies
  refine ⟨authorities, authorization, ha, hv, fun hall => ?_, fun hall => ?_⟩
  · have hm : TravelCredentialScope.global ∈ queryScopes authorization
        { queryIdentity with notAfterUnixSecs := 9000 } 3000 := by simp [hrenewed]
    obtain ⟨credential, hc, -⟩ := List.mem_map.mp hm
    have he := (VerifiedAuthorization.mem_authorizeAll_iff ha hv
      (VerifiedAuthorization.covers_of_verify hv).management).mp hc
    have hnone : (authorization.authorizeManagementAll queryIdentity 3000).getD [] = [] :=
      List.map_eq_nil_iff.mp hexpired
    have hfound := hall credential ⟨he.2.backed, he.2.unrevoked, he.2.active, he.2.travel, he.2.spki⟩
    simp [hnone] at hfound
  · have hm : TravelCredentialScope.global ∈ queryScopes authorization queryIdentity 1500 := by
      simp [hscopes]
    obtain ⟨credential, hc, hglobal⟩ := List.mem_map.mp hm
    obtain ⟨_, -, authority, -, hhome⟩ := hall credential hc
    rw [hglobal] at hhome
    cases authority <;> cases hhome

end FlowSplice
