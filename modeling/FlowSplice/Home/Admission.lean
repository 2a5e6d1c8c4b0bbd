import FlowSplice.Server.Catalog

/-! The OPEN check of a Home: `run_work` of `flowsplice-home-core/src/lib.rs`. A route carries one
credential, which the Relay selects; the catalog is built from all of them. -/
namespace FlowSplice

open Control (Service HomeCatalog Catalog)

structure HomeFlowConfig where
  id : String
  services : List Service
  businessServices : List BusinessService := []
deriving DecidableEq, Repr

/-- `authorize_business_identity`. -/
def authorizeBusinessIdentity (identity : PeerIdentity)
    (authorization : Option VerifiedAuthorization) (credentialId : Uuid) (now : ℕ) :
    Option TravelCredential :=
  authorization.bind (·.authorizeBusinessCredential identity now credentialId)

/-- The service that an OPEN frame asks for, if the credential allows it. -/
def HomeFlowConfig.admits (config : HomeFlowConfig) (credential : TravelCredential)
    (serviceId : String) (protocol : ServiceProtocol) : Option Service :=
  (config.services.find? fun candidate =>
    candidate.id == serviceId && candidate.protocol == protocol).filter fun service =>
      credential.allowsBusinessService config.id service.id service.protocol
        (config.businessServices.find? (·.serviceId == service.id))

/-- `run_work` from the business TLS handshake to the end of its checks. -/
def HomeFlowConfig.openCheck (config : HomeFlowConfig)
    (authorization : Option VerifiedAuthorization) (identity : PeerIdentity)
    (expectedCredentialId : Uuid) (now : ℕ) (frame : DataFrame) :
    Option (TravelCredential × Service) :=
  if requirePeer identity .travel none [] then
    (authorizeBusinessIdentity identity authorization expectedCredentialId now).bind
      fun credential =>
        match frame with
        | .open _ _ serviceId protocol _ =>
          (config.admits credential serviceId protocol).map (credential, ·)
        | _ => none
  else none

/-- The Home that registered a catalog, with the services of the grant that the catalog has. -/
def servingConfig (codec : Codec) (home : HomeCatalog) : HomeFlowConfig where
  id := home.homeId
  services := home.services
  businessServices :=
    ((home.serviceGrant.bind fun signed => codec.grant signed.payloadHex).map (·.services)).getD []

/-- The credential that ends last of those that allow the Home. -/
def lastEnding (credentials : List TravelCredential) (homeId : String) :
    Option TravelCredential :=
  Keyed.maxByKey (·.notAfterUnixSecs) (credentials.filter (·.allowsHome homeId))

theorem admits_isSome {config : HomeFlowConfig} {credential : TravelCredential} {serviceId : String}
    {protocol : ServiceProtocol} :
    (config.admits credential serviceId protocol).isSome = true ↔
      (∃ service ∈ config.services, service.id = serviceId ∧ service.protocol = protocol) ∧
        Allowed [credential] config.id config.businessServices serviceId protocol := by
  unfold HomeFlowConfig.admits Allowed
  constructor
  · intro h
    obtain ⟨service, hs⟩ := Option.isSome_iff_exists.mp h
    obtain ⟨hfind, hok⟩ := Option.filter_eq_some_iff.mp hs
    have hkey : service.id = serviceId ∧ service.protocol = protocol := by
      simpa using List.find?_some hfind
    rw [hkey.1, hkey.2] at hok
    exact ⟨⟨service, List.mem_of_find?_eq_some hfind, hkey⟩, credential, by simp, hok⟩
  · rintro ⟨⟨service, hm, hid, hprotocol⟩, other, hother, hok⟩
    have heq := List.mem_singleton.mp hother
    cases hfind : config.services.find? fun candidate =>
        candidate.id == serviceId && candidate.protocol == protocol with
    | none =>
      have hne := List.find?_eq_none.mp hfind service hm
      simp [hid, hprotocol] at hne
    | some first =>
      have hkey : first.id = serviceId ∧ first.protocol = protocol := by
        simpa using List.find?_some hfind
      rw [heq, ← hkey.1, ← hkey.2] at hok
      simp [Option.filter, hok]

/-- An identity presents the business certificate of a credential. -/
structure PeerIdentity.Presents (identity : PeerIdentity) (credential : TravelCredential)
    (now : ℕ) : Prop where
  role : identity.role = .travel
  active : identity.activeAt now = true
  travel : credential.travelId = identity.id
  spki : eqIgnoreAsciiCase credential.businessSpkiSha256 identity.spkiSha256 = true

section
variable {codec : AuthorizationCodec} {authorities : List TrustedTravelAuthority}
  {deploymentId : String} {snapshot : TravelAuthorizationSnapshot}
  {authorization : VerifiedAuthorization} {now : ℕ}

open VerifiedAuthorization

theorem mem_activeCredentials (hc : Covers codec authorities deploymentId snapshot authorization)
    {travelId spki : String} {credential : TravelCredential} :
    credential ∈ authorization.activeCredentials travelId spki now ↔
      credential ∈ authorization.credentials ∧ credential.travelId = travelId ∧
        eqIgnoreAsciiCase credential.managementSpkiSha256 spki = true ∧
        credential.credentialId ∉ authorization.revokedCredentials ∧
        credential.activeAt now = true := by
  unfold activeCredentials
  rw [List.mem_filter]
  constructor
  · rintro ⟨hm, h⟩
    simp only [Bool.and_eq_true, beq_iff_eq, (isActive_of_mem hc.nodup hm).2, Bool.not_eq_true',
      decide_eq_false_iff_not] at h
    exact ⟨hm, h.1.1, h.1.2, h.2.1, h.2.2⟩
  · rintro ⟨hm, ht, hs, hr, ha⟩
    have hr : decide (credential.credentialId ∈ authorization.revokedCredentials) = false := by
      simpa using hr
    exact ⟨hm, by simp [(isActive_of_mem hc.nodup hm).2, ht, hs, hr, ha]⟩

/-- The Relay selects the credential that ends last of those that the Server shows. -/
theorem authorizeManagementForHome_eq
    (hc : Covers codec authorities deploymentId snapshot authorization)
    {identity : PeerIdentity} (hi : identity.activeAt now = true) (homeId : String) :
    authorization.authorizeManagementForHome identity now homeId =
      lastEnding (authorization.activeCredentials identity.id identity.spkiSha256 now) homeId := by
  have hsame : authorization.credentials.filter
      (authorization.holds identity now (·.managementSpkiSha256)) =
        authorization.activeCredentials identity.id identity.spkiSha256 now := by
    refine List.filter_congr fun credential hm => ?_
    simp only [holds, (isActive_of_mem hc.nodup hm).2]
    ac_rfl
  unfold authorizeManagementForHome authorizeManagementAll
  rw [authorizeAll_eq hc.nodup hc.management, if_pos hi, hsame, Option.filter_some]
  split_ifs with hempty
  · rfl
  · have hnil : authorization.activeCredentials identity.id identity.spkiSha256 now = [] := by
      simpa using hempty
    rw [hnil]
    rfl

theorem openCheck_isSome (hc : Covers codec authorities deploymentId snapshot authorization)
    {config : HomeFlowConfig} {business : PeerIdentity} {credential : TravelCredential}
    (hm : credential ∈ authorization.credentials)
    (hr : credential.credentialId ∉ authorization.revokedCredentials)
    (ha : credential.activeAt now = true) (hb : business.Presents credential now)
    (flowId carrierId : Uuid) (serviceId : String) (protocol : ServiceProtocol) (version : ℕ) :
    (config.openCheck (some authorization) business credential.credentialId now
      (.open flowId carrierId serviceId protocol version)).isSome = true ↔
        (config.admits credential serviceId protocol).isSome = true := by
  have hpeer : requirePeer business .travel none [] = true := by simp [requirePeer, hb.role]
  have hholds : authorization.holds business now (·.businessSpkiSha256) credential = true := by
    have hr : decide (credential.credentialId ∈ authorization.revokedCredentials) = false := by
      simpa using hr
    simp [holds, hb.travel, hb.spki, hr, ha]
  have hquery : authorization.authorizeBusinessCredential business now credential.credentialId =
      some credential := by
    rw [authorizeBusinessCredential_iff hc.nodup hc.business]
    exact ⟨(mem_authorizeAll hc.nodup hc.business).mpr ⟨hb.active, hm, hholds⟩, rfl⟩
  simp [HomeFlowConfig.openCheck, hpeer, authorizeBusinessIdentity, hquery]

/-- A valid grant is the one that the Home serves. -/
theorem approvedGrant_services {codec : Codec} {trust : Option DeploymentTrust}
    {home : HomeCatalog} {grant : Option HomeServiceGrant}
    (h : approvedGrant codec trust home now = some grant) :
    (servingConfig codec home).businessServices = (grant.map (·.services)).getD [] := by
  unfold approvedGrant at h
  cases hsigned : home.serviceGrant with
  | none =>
    have heq : none = grant := by simpa [hsigned] using h
    simp [servingConfig, hsigned, ← heq]
  | some signed =>
    cases trust with
    | none => simp [hsigned] at h
    | some trust =>
      cases hendpoint : home.endpointCredential with
      | none => simp [hsigned, hendpoint] at h
      | some endpoint =>
        simp only [hsigned, hendpoint] at h
        obtain ⟨approved, happroved, rfl⟩ := Option.map_eq_some_iff.mp h
        have hpayload := SignedHomeServiceGrant.payload_of_verify (Option.filter_eq_some_iff.mp happroved).1
        simp [servingConfig, hsigned, hpayload]

/-- The catalog of a Travel shows a service of a Home. -/
def Shows (codec : Codec) (trust : DeploymentTrust) (catalog : Catalog)
    (credentials : List TravelCredential) (now : ℕ) (homeId serviceId : String)
    (protocol : ServiceProtocol) : Prop :=
  ∃ home ∈ (catalogForCredentials codec catalog credentials (some trust) now).homes,
    home.homeId = homeId ∧ ∃ service ∈ home.services,
      service.id = serviceId ∧ service.protocol = protocol

/-- A Home admits an OPEN frame on a route with the credential that the Relay selects. -/
def Admits (authorization : VerifiedAuthorization) (config : HomeFlowConfig)
    (management business : PeerIdentity) (now : ℕ) (serviceId : String)
    (protocol : ServiceProtocol) : Prop :=
  ∃ credential, authorization.authorizeManagementForHome management now config.id =
      some credential ∧
    ∀ flowId carrierId version,
      (config.openCheck (some authorization) business credential.credentialId now
        (.open flowId carrierId serviceId protocol version)).isSome = true

/-- The credential that ends last allows every service of the Home that another one allows. Of a
Home whose grant is not valid, it allows none. -/
structure LastAllowsAll (codec : Codec) (trust : DeploymentTrust) (home : HomeCatalog)
    (credentials : List TravelCredential) (now : ℕ) : Prop where
  valid : (approvedGrant codec (some trust) home now).isSome = true →
    ∀ service ∈ home.services, ∀ last, lastEnding credentials home.homeId = some last →
      Allowed credentials home.homeId (servingConfig codec home).businessServices service.id
        service.protocol →
      Allowed [last] home.homeId (servingConfig codec home).businessServices service.id
        service.protocol
  invalid : approvedGrant codec (some trust) home now = none →
    ∀ service ∈ home.services, ∀ last, lastEnding credentials home.homeId = some last →
      ¬ Allowed [last] home.homeId (servingConfig codec home).businessServices service.id
        service.protocol

theorem shows_iff {codec : Codec} {trust : DeploymentTrust} {catalog : Catalog}
    {home : HomeCatalog} {credentials : List TravelCredential} {serviceId : String}
    {protocol : ServiceProtocol} (hids : (catalog.homes.map (·.homeId)).Nodup)
    (hm : home ∈ catalog.homes) :
    Shows codec trust catalog credentials now home.homeId serviceId protocol ↔
      (approvedGrant codec (some trust) home now).isSome = true ∧
      (∃ service ∈ home.services, service.id = serviceId ∧ service.protocol = protocol) ∧
      Allowed credentials home.homeId (servingConfig codec home).businessServices serviceId
        protocol := by
  unfold Shows
  constructor
  · rintro ⟨entry, hentry, hid, service, hs, rfl, rfl⟩
    obtain ⟨other, hother, hshown⟩ := List.mem_filterMap.mp hentry
    have hsame : other = home := List.inj_on_of_nodup_map hids hother hm
      ((homeId_of_homeForCredentials hshown).symm.trans hid)
    subst hsame
    obtain ⟨grant, hgrant, hs, hok⟩ := mem_homeForCredentials.mp ⟨entry, hshown, hs⟩
    rw [approvedGrant_services hgrant, hgrant]
    exact ⟨rfl, ⟨service, hs, rfl, rfl⟩, hok⟩
  · rintro ⟨hgrant, ⟨service, hs, rfl, rfl⟩, hok⟩
    obtain ⟨grant, hgrant⟩ := Option.isSome_iff_exists.mp hgrant
    rw [approvedGrant_services hgrant] at hok
    obtain ⟨shown, hshown, hmem⟩ := mem_homeForCredentials.mpr ⟨grant, hgrant, hs, hok⟩
    have hid := homeId_of_homeForCredentials hshown
    exact ⟨shown, List.mem_filterMap.mpr ⟨home, hm, hshown⟩, hid, service, hmem, rfl, rfl⟩

theorem admits_iff (hc : Covers codec authorities deploymentId snapshot authorization)
    {home : HomeCatalog} {management business : PeerIdentity}
    (hmanagement : management.activeAt now = true)
    (hbusiness : ∀ credential,
      authorization.authorizeManagementForHome management now home.homeId = some credential →
        business.Presents credential now)
    {serviceId : String} {protocol : ServiceProtocol} :
    Admits authorization (servingConfig codec.toCodec home) management business now serviceId
        protocol ↔
      ∃ last, lastEnding
          (authorization.activeCredentials management.id management.spkiSha256 now) home.homeId =
            some last ∧
        (∃ service ∈ home.services, service.id = serviceId ∧ service.protocol = protocol) ∧
        Allowed [last] home.homeId (servingConfig codec.toCodec home).businessServices serviceId
          protocol := by
  have hselect := authorizeManagementForHome_eq hc hmanagement home.homeId
  have hopen : ∀ last, lastEnding
      (authorization.activeCredentials management.id management.spkiSha256 now) home.homeId =
        some last → ∀ flowId carrierId version,
      (((servingConfig codec.toCodec home).openCheck (some authorization) business
        last.credentialId now (.open flowId carrierId serviceId protocol version)).isSome = true ↔
      (∃ service ∈ home.services, service.id = serviceId ∧ service.protocol = protocol) ∧
        Allowed [last] home.homeId (servingConfig codec.toCodec home).businessServices serviceId
          protocol) := by
    intro last hlast flowId carrierId version
    have hactive := List.mem_of_mem_filter (Keyed.maxByKey_mem hlast)
    obtain ⟨hm, -, -, hr, ha⟩ := (mem_activeCredentials hc).mp hactive
    have hpresents := hbusiness last (hselect.trans hlast)
    rw [openCheck_isSome hc hm hr ha hpresents, admits_isSome]
    rfl
  unfold Admits
  constructor
  · rintro ⟨last, hlast, hall⟩
    have hlast := hselect.symm.trans hlast
    exact ⟨last, hlast, (hopen last hlast 0 0 0).mp (hall 0 0 0)⟩
  · rintro ⟨last, hlast, hallowed⟩
    exact ⟨last, hselect.trans hlast, fun flowId carrierId version =>
      (hopen last hlast flowId carrierId version).mpr hallowed⟩

theorem Allowed.of_last {credentials : List TravelCredential} {homeId serviceId : String}
    {businessServices : List BusinessService} {protocol : ServiceProtocol}
    {last : TravelCredential} (hlast : lastEnding credentials homeId = some last)
    (h : Allowed [last] homeId businessServices serviceId protocol) :
    Allowed credentials homeId businessServices serviceId protocol := by
  obtain ⟨credential, hm, hok⟩ := h
  have heq := List.mem_singleton.mp hm
  exact ⟨last, List.mem_of_mem_filter (Keyed.maxByKey_mem hlast), heq ▸ hok⟩

theorem Allowed.exists_last {credentials : List TravelCredential} {homeId serviceId : String}
    {businessServices : List BusinessService} {protocol : ServiceProtocol}
    (h : Allowed credentials homeId businessServices serviceId protocol) :
    ∃ last, lastEnding credentials homeId = some last := by
  obtain ⟨credential, hm, hok⟩ := h
  have hhome := TravelCredentialScope.allowsHome_of_allowsBusinessService hok
  have hfilter : credential ∈ credentials.filter (·.allowsHome homeId) :=
    List.mem_filter.mpr ⟨hm, hhome⟩
  refine Option.ne_none_iff_exists'.mp fun hnone => ?_
  rw [Keyed.maxByKey_eq_none.mp hnone] at hfilter
  cases hfilter

/-- The catalog shows of a Home what it admits exactly when the credential that the Relay selects
is not narrower than the others. -/
theorem shows_iff_admits {trust : DeploymentTrust} {catalog : Catalog} {home : HomeCatalog}
    {management business : PeerIdentity}
    (hv : verify codec snapshot authorities deploymentId = some authorization)
    (hids : (catalog.homes.map (·.homeId)).Nodup) (hm : home ∈ catalog.homes)
    (hmanagement : management.activeAt now = true)
    (hbusiness : ∀ credential,
      authorization.authorizeManagementForHome management now home.homeId = some credential →
        business.Presents credential now) :
    (∀ serviceId protocol,
      Shows codec.toCodec trust catalog
          (authorization.activeCredentials management.id management.spkiSha256 now) now
          home.homeId serviceId protocol ↔
        Admits authorization (servingConfig codec.toCodec home) management business now serviceId
          protocol) ↔
      LastAllowsAll codec.toCodec trust home
        (authorization.activeCredentials management.id management.spkiSha256 now) now := by
  have hc := covers_of_verify hv
  simp only [shows_iff hids hm, admits_iff hc hmanagement hbusiness]
  constructor
  · intro h
    constructor
    · intro hvalid service hs last hlast hall
      obtain ⟨other, hother, -, hallowed⟩ :=
        (h service.id service.protocol).mp ⟨hvalid, ⟨service, hs, rfl, rfl⟩, hall⟩
      obtain rfl := Option.some.inj (hlast.symm.trans hother)
      exact hallowed
    · intro hinvalid service hs last hlast hallowed
      have hshown := (h service.id service.protocol).mpr
        ⟨last, hlast, ⟨service, hs, rfl, rfl⟩, hallowed⟩
      simp [hinvalid] at hshown
  · intro h serviceId protocol
    constructor
    · rintro ⟨hvalid, ⟨service, hs, rfl, rfl⟩, hall⟩
      obtain ⟨last, hlast⟩ := hall.exists_last
      exact ⟨last, hlast, ⟨service, hs, rfl, rfl⟩, h.valid hvalid service hs last hlast hall⟩
    · rintro ⟨last, hlast, ⟨service, hs, rfl, rfl⟩, hallowed⟩
      refine ⟨?_, ⟨service, hs, rfl, rfl⟩, hallowed.of_last hlast⟩
      cases hgrant : approvedGrant codec.toCodec (some trust) home now with
      | some grant => rfl
      | none => exact absurd hallowed (h.invalid hgrant service hs last hlast)

end

/-! Two credentials of one Travel, each for one service of the same Home. -/

def narrowCredential (credentialId : Uuid) (serviceId : String) (notAfter : ℕ) : TravelCredential :=
  { sampleCredential with
    credentialId := credentialId
    scope := .service "home-1" serviceId .tcp
    notAfterUnixSecs := notAfter }

def narrowServer : ServerConfig := { sampleServer with
  codec := { sampleServer.codec with
    credential := fun payloadHex =>
      if payloadHex = "c1" then some (narrowCredential 1 "web" 5000)
      else if payloadHex = "c2" then some (narrowCredential 2 "mail" 9000)
      else none } }

def narrowSnapshot (payloads : List String) : TravelAuthorizationSnapshot where
  generation := 2
  credentials := payloads.map fun payloadHex => ⟨"authority-1", payloadHex, "b"⟩

def narrowHome : HomeCatalog where
  homeId := "home-1"
  homeAlias := "Home"
  services := [⟨"web", "Web", .tcp, "127.0.0.1:80"⟩, ⟨"mail", "Mail", .tcp, "127.0.0.1:25"⟩]

def narrowCatalog : Catalog := ⟨1, [narrowHome]⟩

def narrowIdentity (spkiSha256 : String) : PeerIdentity where
  role := .travel
  id := "travel-1"
  spkiSha256 := spkiSha256
  notBeforeUnixSecs := 1
  notAfterUnixSecs := 20000

theorem narrowIdentity_presents (credentialId : Uuid) (serviceId : String) (notAfter : ℕ) :
    (narrowIdentity (samplePin '4')).Presents (narrowCredential credentialId serviceId notAfter)
      1500 := by
  constructor
  · rfl
  · rfl
  · rfl
  · simp [eqIgnoreAsciiCase, narrowCredential, sampleCredential, narrowIdentity]

open VerifiedAuthorization

/-- The active credentials of the Travel, and the one that the Relay selects. -/
private theorem narrow_run (payloads : List String) (active : List TravelCredential)
    (last : TravelCredential)
    (h : ((narrowServer.authorities (narrowSnapshot payloads)).bind
        (narrowServer.verify (narrowSnapshot payloads))).map (fun authorization =>
          (authorization.activeCredentials "travel-1" (samplePin '3') 1500,
            authorization.authorizeManagementForHome (narrowIdentity (samplePin '3')) 1500
              "home-1")) = some (active, some last)) :
    ∃ authorities authorization,
      verify narrowServer.codec (narrowSnapshot payloads) authorities
        narrowServer.trust.deploymentId = some authorization ∧
      authorization.activeCredentials "travel-1" (samplePin '3') 1500 = active ∧
      authorization.authorizeManagementForHome (narrowIdentity (samplePin '3')) 1500 "home-1" =
        some last := by
  obtain ⟨authorization, hv, heq⟩ := Option.map_eq_some_iff.mp h
  obtain ⟨authorities, -, hv⟩ := Option.bind_eq_some_iff.mp hv
  exact ⟨authorities, authorization, hv, Prod.mk.inj heq⟩

theorem shows_iff_admits_single : ∃ authorization : VerifiedAuthorization,
    authorization.activeCredentials "travel-1" (samplePin '3') 1500 =
      [narrowCredential 1 "web" 5000] ∧
    ∀ serviceId protocol,
      Shows narrowServer.codec.toCodec sampleDeployment narrowCatalog
          (authorization.activeCredentials "travel-1" (samplePin '3') 1500) 1500 "home-1"
          serviceId protocol ↔
        Admits authorization (servingConfig narrowServer.codec.toCodec narrowHome)
          (narrowIdentity (samplePin '3')) (narrowIdentity (samplePin '4')) 1500 serviceId
          protocol := by
  obtain ⟨authorities, authorization, hv, hactive, hselected⟩ :=
    narrow_run ["c1"] [narrowCredential 1 "web" 5000] (narrowCredential 1 "web" 5000)
      (by decide +kernel)
  have hbusiness : ∀ credential, authorization.authorizeManagementForHome
      (narrowIdentity (samplePin '3')) 1500 narrowHome.homeId = some credential →
        (narrowIdentity (samplePin '4')).Presents credential 1500 := by
    intro credential hc
    obtain rfl := Option.some.inj (hselected.symm.trans hc)
    exact narrowIdentity_presents 1 "web" 5000
  have hids : (narrowCatalog.homes.map (·.homeId)).Nodup := List.nodup_singleton "home-1"
  have hm : narrowHome ∈ narrowCatalog.homes := List.mem_singleton_self narrowHome
  refine ⟨authorization, hactive, (shows_iff_admits hv hids hm rfl hbusiness).mpr ?_⟩
  constructor
  · intro hvalid service hs last hlast hall
    have hmem := List.mem_of_mem_filter (Keyed.maxByKey_mem hlast)
    have hactive' : last = narrowCredential 1 "web" 5000 := by
      simpa [narrowIdentity, hactive] using hmem
    simpa [narrowIdentity, hactive, hactive'] using hall
  · intro hinvalid
    cases hinvalid

theorem not_shows_iff_admits : ∃ authorities authorization,
    verify narrowServer.codec (narrowSnapshot ["c1", "c2"]) authorities
      narrowServer.trust.deploymentId = some authorization ∧
    ¬ ∀ serviceId protocol,
      Shows narrowServer.codec.toCodec sampleDeployment narrowCatalog
          (authorization.activeCredentials "travel-1" (samplePin '3') 1500) 1500 "home-1"
          serviceId protocol ↔
        Admits authorization (servingConfig narrowServer.codec.toCodec narrowHome)
          (narrowIdentity (samplePin '3')) (narrowIdentity (samplePin '4')) 1500 serviceId
          protocol := by
  obtain ⟨authorities, authorization, hv, hactive, hselected⟩ :=
    narrow_run ["c1", "c2"] [narrowCredential 1 "web" 5000, narrowCredential 2 "mail" 9000]
      (narrowCredential 2 "mail" 9000) (by decide +kernel)
  refine ⟨authorities, authorization, hv, fun hall => ?_⟩
  have hbusiness : ∀ credential, authorization.authorizeManagementForHome
      (narrowIdentity (samplePin '3')) 1500 narrowHome.homeId = some credential →
        (narrowIdentity (samplePin '4')).Presents credential 1500 := by
    intro credential hc
    obtain rfl := Option.some.inj (hselected.symm.trans hc)
    exact narrowIdentity_presents 2 "mail" 9000
  have hids : (narrowCatalog.homes.map (·.homeId)).Nodup := List.nodup_singleton "home-1"
  have hm : narrowHome ∈ narrowCatalog.homes := List.mem_singleton_self narrowHome
  have hallowed : Allowed (authorization.activeCredentials "travel-1" (samplePin '3') 1500)
      "home-1" (servingConfig narrowServer.codec.toCodec narrowHome).businessServices "web" .tcp :=
    ⟨narrowCredential 1 "web" 5000, by simp [hactive], by decide⟩
  have hshown : Shows narrowServer.codec.toCodec sampleDeployment narrowCatalog
      (authorization.activeCredentials "travel-1" (samplePin '3') 1500) 1500 "home-1" "web" .tcp :=
    (shows_iff hids hm).mpr ⟨rfl, ⟨_, List.mem_cons_self, rfl, rfl⟩, hallowed⟩
  obtain ⟨last, hlast, -, credential, hc, hok⟩ :=
    (admits_iff (covers_of_verify hv) rfl hbusiness).mp ((hall "web" .tcp).mp hshown)
  rw [← authorizeManagementForHome_eq (covers_of_verify hv) rfl] at hlast
  obtain rfl := Option.some.inj (hselected.symm.trans hlast)
  obtain rfl := List.mem_singleton.mp hc
  exact absurd hok (by decide)

end FlowSplice
