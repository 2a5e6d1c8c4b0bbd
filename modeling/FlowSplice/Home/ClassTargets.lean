import FlowSplice.Home.Admission
import FlowSplice.Issuance.Directed
import FlowSplice.Lib.JsonText

/-! The services that a Travel enrolled for a service class may open:
`flowsplice-travel-core/src/service_class.rs`. -/
namespace FlowSplice

open Control (Service HomeCatalog Catalog Installation SignedControlSnapshot)

/-- A signed grant whose services differ in their ids. -/
theorem SignedHomeServiceGrant.nodup_of_verify {codec : Codec} {signed : SignedHomeServiceGrant}
    {trust : DeploymentTrust} {endpoint : SignedHomeEndpointCredential} {now : ℕ}
    {grant : HomeServiceGrant} (h : signed.verify codec trust endpoint now = some grant) :
    (grant.services.map (·.serviceId)).Nodup := by
  obtain ⟨_, -, h⟩ := Option.bind_eq_some_iff.mp h
  have hbinding := (Option.filter_eq_some_iff.mp h).1
  unfold verifyBinding at hbinding
  cases hendpoint : endpoint.verifyTrustBinding codec trust with
  | none =>
    rw [hendpoint] at hbinding
    cases hbinding
  | some payload =>
    rw [hendpoint] at hbinding
    have hvalid := (Option.filter_eq_some_iff.mp hbinding).2
    simp only [Bool.and_eq_true] at hvalid
    have hgrant : grant.validate = true := by
      obtain ⟨⟨⟨⟨⟨⟨⟨⟨⟨⟨⟨⟨hgrant, -⟩, -⟩, -⟩, -⟩, -⟩, -⟩, -⟩, -⟩, -⟩, -⟩, -⟩, -⟩ := hvalid
      exact hgrant
    unfold HomeServiceGrant.validate at hgrant
    simp only [Bool.and_eq_true] at hgrant
    have hservices := hgrant.2
    unfold validateServices at hservices
    simp only [Bool.and_eq_true, decide_eq_true_eq] at hservices
    exact hservices.2

theorem HomeServiceGrant.validateCatalogServices_sublist {grant : HomeServiceGrant}
    {services services' : List Service} (hsub : services'.Sublist services)
    (h : grant.validateCatalogServices services = true) :
    grant.validateCatalogServices services' = true := by
  unfold validateCatalogServices at h ⊢
  rw [Bool.and_eq_true, decide_eq_true_eq, List.all_eq_true] at h ⊢
  exact ⟨h.1.sublist (hsub.map _), fun service hs => h.2 service (hsub.subset hs)⟩

structure ServiceClassTarget where
  id : List UInt8
  homeId : String
  name : String
  serviceId : String
  service : BusinessService
deriving DecidableEq, Repr

structure ServiceBinding where
  homeId : String
  serviceId : String
  protocol : ServiceProtocol
deriving DecidableEq, Repr

namespace ServiceClassTarget

/-- The JSON of the two ids as an array. -/
def idOf (homeId serviceId : String) : List UInt8 :=
  0x5b :: (JsonText.quoted (stringBytes homeId) ++
    0x2c :: (JsonText.quoted (stringBytes serviceId) ++ [0x5d]))

/-- A service of a Home, of which so many are of the class. -/
def of (home : HomeCatalog) (count : ℕ) (service : Service) (approved : BusinessService) :
    ServiceClassTarget where
  id := idOf home.homeId service.id
  homeId := home.homeId
  name := if 1 < count then home.homeAlias ++ " · " ++ service.aliasName else home.homeAlias
  serviceId := service.id
  service := approved

def binds (target : ServiceClassTarget) (binding : ServiceBinding) : Bool :=
  target.homeId == binding.homeId && target.serviceId == binding.serviceId &&
    target.service.protocol == binding.protocol

theorem idOf_inj {homeId homeId' serviceId serviceId' : String}
    (h : idOf homeId serviceId = idOf homeId' serviceId') :
    homeId = homeId' ∧ serviceId = serviceId' := by
  obtain ⟨hhome, hrest⟩ := JsonText.quoted_append_inj (List.cons.inj h).2
  obtain ⟨hservice, -⟩ := JsonText.quoted_append_inj (List.cons.inj hrest).2
  exact ⟨stringBytes_injective hhome, stringBytes_injective hservice⟩

end ServiceClassTarget

namespace ServiceClassDescriptor
variable (descriptor : ServiceClassDescriptor)

/-- The services of a Home that are of the class, with what the grant says about each. -/
def matching (home : HomeCatalog) (grant : HomeServiceGrant) : List (Service × BusinessService) :=
  home.services.filterMap fun service =>
    (grant.services.find? fun approved => approved.serviceId == service.id &&
      descriptor.scope.allowsBusinessService home.homeId service.id service.protocol
        (some approved)).map (service, ·)

def homeTargets (codec : Codec) (trust : DeploymentTrust) (now : ℕ) (home : HomeCatalog) :
    List ServiceClassTarget :=
  match home.serviceGrant, home.endpointCredential with
  | some signed, some endpoint => match signed.verify codec trust endpoint now with
    | some grant =>
      if grant.homeId == home.homeId && grant.validateCatalogServices home.services then
        (descriptor.matching home grant).map fun (service, approved) =>
          .of home (descriptor.matching home grant).length service approved
      else []
    | none => []
  | _, _ => []

/-- `targets`. -/
def targets (codec : Codec) (catalog : Catalog) (trust : DeploymentTrust) (now : ℕ) :
    Option (List ServiceClassTarget) :=
  if !descriptor.validate then none
  else if now < trust.notBeforeUnixSecs ∨ trust.notAfterUnixSecs ≤ now then none
  else some (catalog.homes.flatMap (descriptor.homeTargets codec trust now))

/-- `class_targets`, from the cached snapshot. -/
def classTargets (env : Installation) (cached : Option SignedControlSnapshot) (now : ℕ) :
    Option (List ServiceClassTarget) :=
  match cached with
  | none => some []
  | some snapshot => ((env.verifyAtIssuance snapshot).filter (Control.requireSubject env ·)).bind
      fun verified => descriptor.targets env.codec verified.payload.catalog verified.trust now

/-- `class_binding_allowed` of a Travel that has the class. -/
def classBindingAllowed (env : Installation) (cached : Option SignedControlSnapshot)
    (binding : ServiceBinding) (now : ℕ) : Option Bool :=
  (descriptor.classTargets env cached now).map (·.any (·.binds binding))

/-- `home_business_pins`. -/
def homeBusinessPins (env : Installation) (cached : Option SignedControlSnapshot)
    (binding : ServiceBinding) (now : ℕ) : Option (List String) :=
  (cached.bind fun snapshot =>
    (env.verifyAtIssuance snapshot).filter (Control.requireSubject env ·)).bind fun verified =>
      (descriptor.targets env.codec verified.payload.catalog verified.trust now).bind fun targets =>
        if targets.any (·.binds binding) then
          (verified.trust.resolveHomeEndpoint env.codec binding.homeId
            ((verified.payload.catalog.homes.find? (·.homeId == binding.homeId)).bind
              (·.endpointCredential)) now).map (·.businessSpkiPins)
        else none

variable {descriptor : ServiceClassDescriptor} {codec : Codec} {trust : DeploymentTrust}
  {home : HomeCatalog} {grant : HomeServiceGrant} {catalog : Catalog} {binding : ServiceBinding}
  {now issued : ℕ}

/-- The Home of the catalog has a valid grant, and the grant has the service in the class. -/
structure Grants (descriptor : ServiceClassDescriptor) (codec : Codec) (trust : DeploymentTrust)
    (home : HomeCatalog) (now : ℕ) (binding : ServiceBinding) (grant : HomeServiceGrant) :
    Prop where
  homeId : home.homeId = binding.homeId
  approved : approvedGrant codec (some trust) home now = some (some grant)
  service : ∃ service ∈ home.services, service.id = binding.serviceId ∧
    service.protocol = binding.protocol
  allowed : descriptor.scope.allowsBusinessService binding.homeId binding.serviceId
    binding.protocol (grant.services.find? (·.serviceId == binding.serviceId)) = true

theorem mem_matching (hn : (grant.services.map (·.serviceId)).Nodup) {service : Service}
    {approved : BusinessService} : (service, approved) ∈ descriptor.matching home grant ↔
      service ∈ home.services ∧
        grant.services.find? (·.serviceId == service.id) = some approved ∧
        descriptor.scope.allowsBusinessService home.homeId service.id service.protocol
          (some approved) = true := by
  unfold matching
  rw [List.mem_filterMap]
  constructor
  · rintro ⟨held, hheld, hpair⟩
    obtain ⟨found, hfind, heq⟩ := Option.map_eq_some_iff.mp hpair
    cases heq
    rw [Keyed.find_and hn, Option.filter_eq_some_iff] at hfind
    exact ⟨hheld, hfind⟩
  · rintro ⟨hservice, hfind⟩
    refine ⟨service, hservice, ?_⟩
    rw [Keyed.find_and hn, Option.map_eq_some_iff]
    exact ⟨approved, Option.filter_eq_some_iff.mpr hfind, rfl⟩

/-- A class allows a service by what the grant has of it. -/
theorem allows_iff {homeId serviceId : String} {protocol : ServiceProtocol}
    {business : Option BusinessService} :
    descriptor.scope.allowsBusinessService homeId serviceId protocol business = true ↔
      ∃ service, business = some service ∧ service.serviceId = serviceId ∧
        service.protocol = protocol ∧ protocol = descriptor.protocol ∧
        service.applicationProtocol = descriptor.applicationProtocol := by
  cases business with
  | none =>
    constructor
    · intro h
      cases h
    · rintro ⟨_, h, -⟩
      cases h
  | some service =>
    show (service.serviceId == serviceId && service.protocol == protocol &&
      protocol == descriptor.protocol &&
      service.applicationProtocol == descriptor.applicationProtocol) = true ↔ _
    simp only [Bool.and_eq_true, beq_iff_eq, and_assoc]
    constructor
    · intro h
      exact ⟨service, rfl, h⟩
    · rintro ⟨held, heq, h⟩
      rw [Option.some.inj heq]
      exact h

/-- The targets of a Home are the services of the class in its valid grant. -/
theorem exists_homeTarget : (∃ target ∈ descriptor.homeTargets codec trust now home,
    target.binds binding = true) ↔ ∃ grant, descriptor.Grants codec trust home now binding grant := by
  constructor
  · rintro ⟨target, htarget, hbinds⟩
    unfold homeTargets at htarget
    cases hsigned : home.serviceGrant with
    | none => simp [hsigned] at htarget
    | some signed =>
      cases hendpoint : home.endpointCredential with
      | none => simp [hsigned, hendpoint] at htarget
      | some endpoint =>
        cases hgrant : signed.verify codec trust endpoint now with
        | none => simp [hsigned, hendpoint, hgrant] at htarget
        | some grant =>
          simp only [hsigned, hendpoint, hgrant] at htarget
          by_cases hok : (grant.homeId == home.homeId &&
              grant.validateCatalogServices home.services) = true
          · rw [if_pos hok] at htarget
            obtain ⟨⟨service, approved⟩, hmatch, rfl⟩ := List.mem_map.mp htarget
            have hn := SignedHomeServiceGrant.nodup_of_verify hgrant
            obtain ⟨hservice, hfind, hallows⟩ := (mem_matching hn).mp hmatch
            simp only [ServiceClassTarget.binds, ServiceClassTarget.of, Bool.and_eq_true,
              beq_iff_eq] at hbinds
            obtain ⟨⟨hhome, hid⟩, hprotocol⟩ := hbinds
            have happroved : approved.protocol = service.protocol := by
              obtain ⟨held, heq, -, h, -⟩ := allows_iff.mp hallows
              rw [Option.some.inj heq]
              exact h
            have hsame := happroved.symm.trans hprotocol
            refine ⟨grant, hhome, ?_, ⟨service, hservice, hid, hsame⟩, ?_⟩
            · unfold approvedGrant
              simp only [hsigned, hendpoint, hgrant, Option.filter_some]
              rw [if_pos hok]
              rfl
            · rw [← hhome, ← hid, ← hsame, hfind]
              exact hallows
          · rw [if_neg hok] at htarget
            cases htarget
  · rintro ⟨grant, hhome, happroved, ⟨service, hservice, hid, hprotocol⟩, hallows⟩
    unfold approvedGrant at happroved
    cases hsigned : home.serviceGrant with
    | none => simp [hsigned] at happroved
    | some signed =>
      cases hendpoint : home.endpointCredential with
      | none => simp [hsigned, hendpoint] at happroved
      | some endpoint =>
        simp only [hsigned, hendpoint] at happroved
        obtain ⟨held, hheld, heq⟩ := Option.map_eq_some_iff.mp happroved
        cases heq
        obtain ⟨hverify, hok⟩ := Option.filter_eq_some_iff.mp hheld
        have hn := SignedHomeServiceGrant.nodup_of_verify hverify
        obtain ⟨approved, hfind, -, hp, -⟩ := allows_iff.mp hallows
        have hmatch : (service, approved) ∈ descriptor.matching home grant := by
          rw [hfind, ← hhome, ← hid, ← hprotocol] at hallows
          rw [← hid] at hfind
          exact (mem_matching hn).mpr ⟨hservice, hfind, hallows⟩
        unfold homeTargets
        simp only [hsigned, hendpoint, hverify, hok, if_true]
        refine ⟨_, List.mem_map.mpr ⟨(service, approved), hmatch, rfl⟩, ?_⟩
        simp only [ServiceClassTarget.binds, ServiceClassTarget.of, hhome, hid, hp,
          beq_self_eq_true, Bool.and_self]

/-- A binding is among the targets of a catalog. -/
def Offers (descriptor : ServiceClassDescriptor) (codec : Codec) (catalog : Catalog)
    (trust : DeploymentTrust) (now : ℕ) (binding : ServiceBinding) : Prop :=
  ∃ targets, descriptor.targets codec catalog trust now = some targets ∧
    targets.any (·.binds binding) = true

/-- The trust is in force, without the clock skew that its signature is checked with. -/
def Started (descriptor : ServiceClassDescriptor) (trust : DeploymentTrust) (now : ℕ) : Prop :=
  descriptor.validate = true ∧ trust.notBeforeUnixSecs ≤ now ∧ now < trust.notAfterUnixSecs

theorem offers_iff (h : descriptor.Started trust now) :
    descriptor.Offers codec catalog trust now binding ↔
      ∃ home ∈ catalog.homes, ∃ grant, descriptor.Grants codec trust home now binding grant := by
  have htargets : descriptor.targets codec catalog trust now =
      some (catalog.homes.flatMap (descriptor.homeTargets codec trust now)) := by
    have hnot : ¬(now < trust.notBeforeUnixSecs ∨ trust.notAfterUnixSecs ≤ now) := by
      have hbefore := h.2.1
      have hafter := h.2.2
      omega
    unfold targets
    rw [h.1, if_neg hnot]
    rfl
  unfold Offers
  rw [htargets]
  constructor
  · rintro ⟨targets, heq, hany⟩
    rw [← Option.some.inj heq] at hany
    obtain ⟨target, htarget, hbinds⟩ := List.any_eq_true.mp hany
    obtain ⟨home, hhome, htarget⟩ := List.mem_flatMap.mp htarget
    exact ⟨home, hhome, exists_homeTarget.mp ⟨target, htarget, hbinds⟩⟩
  · rintro ⟨home, hhome, hgrants⟩
    obtain ⟨target, htarget, hbinds⟩ := exists_homeTarget.mpr hgrants
    have hmem := List.mem_flatMap.mpr ⟨home, hhome, htarget⟩
    exact ⟨_, rfl, List.any_eq_true.mpr ⟨target, hmem, hbinds⟩⟩

theorem approvedGrant_eq_some : approvedGrant codec (some trust) home now = some (some grant) ↔
    ∃ signed endpoint, home.serviceGrant = some signed ∧ home.endpointCredential = some endpoint ∧
      signed.verify codec trust endpoint now = some grant ∧ grant.homeId = home.homeId ∧
      grant.validateCatalogServices home.services = true := by
  unfold approvedGrant
  constructor
  · intro h
    cases hsigned : home.serviceGrant with
    | none => simp [hsigned] at h
    | some signed =>
      cases hendpoint : home.endpointCredential with
      | none => simp [hsigned, hendpoint] at h
      | some endpoint =>
        simp only [hsigned, hendpoint] at h
        obtain ⟨held, hheld, heq⟩ := Option.map_eq_some_iff.mp h
        cases heq
        obtain ⟨hverify, hok⟩ := Option.filter_eq_some_iff.mp hheld
        rw [Bool.and_eq_true, beq_iff_eq] at hok
        exact ⟨signed, endpoint, rfl, rfl, hverify, hok⟩
  · rintro ⟨signed, endpoint, hsigned, hendpoint, hverify, hhome, hservices⟩
    simp only [hsigned, hendpoint, hverify, Option.filter_some, hhome, hservices,
      beq_self_eq_true, Bool.and_self, if_true]
    rfl

theorem exists_of_homeForCredentials {credentials : List TravelCredential} {shown : HomeCatalog}
    (h : homeForCredentials codec credentials (some trust) now home = some shown) :
    ∃ grant, approvedGrant codec (some trust) home now = some grant ∧
      shown = { home with services := servicesForCredentials credentials home grant } := by
  unfold homeForCredentials at h
  split_ifs at h
  obtain ⟨grant, hgrant, h⟩ := Option.bind_eq_some_iff.mp h
  split_ifs at h
  exact ⟨grant, hgrant, (Option.some.inj h).symm⟩

/-- A grant is the same whenever it is valid. -/
theorem approvedGrant_inj {grant' : HomeServiceGrant}
    (h : approvedGrant codec (some trust) home now = some (some grant))
    (h' : approvedGrant codec (some trust) home issued = some (some grant')) : grant = grant' := by
  obtain ⟨signed, _, hsigned, -, hverify, -⟩ := approvedGrant_eq_some.mp h
  obtain ⟨signed', _, hsigned', -, hverify', -⟩ := approvedGrant_eq_some.mp h'
  obtain rfl : signed' = signed := Option.some.inj (hsigned'.symm.trans hsigned)
  have hpayload := SignedHomeServiceGrant.payload_of_verify hverify
  rw [SignedHomeServiceGrant.payload_of_verify hverify'] at hpayload
  exact (Option.some.inj hpayload).symm

/-- What the Server leaves out of a catalog takes no service of the class from it. -/
theorem shown_grants_iff {credentials : List TravelCredential}
    (hclass : ∃ credential ∈ credentials, credential.scope = descriptor.scope) :
    (∃ shown ∈ (catalogForCredentials codec catalog credentials (some trust) issued).homes,
      ∃ grant, descriptor.Grants codec trust shown now binding grant) ↔
    ∃ home ∈ catalog.homes, ∃ grant, descriptor.Grants codec trust home issued binding grant ∧
      descriptor.Grants codec trust home now binding grant := by
  constructor
  · rintro ⟨shown, hshown, grant, hgrants⟩
    obtain ⟨home, hhome, hfilter⟩ := List.mem_filterMap.mp hshown
    obtain ⟨held, hheld, rfl⟩ := exists_of_homeForCredentials hfilter
    obtain ⟨signed, endpoint, hsigned, hendpoint, hverify, hid, -⟩ :=
      approvedGrant_eq_some.mp hgrants.approved
    replace hsigned : home.serviceGrant = some signed := hsigned
    replace hendpoint : home.endpointCredential = some endpoint := hendpoint
    have hboth : approvedGrant codec (some trust) home issued = some (some grant) := by
      cases held with
      | none =>
        unfold approvedGrant at hheld
        simp only [hsigned, hendpoint] at hheld
        obtain ⟨_, -, heq⟩ := Option.map_eq_some_iff.mp hheld
        cases heq
      | some earlier =>
        obtain ⟨signed', _, hsigned', -, hverify', -⟩ := approvedGrant_eq_some.mp hheld
        obtain rfl : signed' = signed := Option.some.inj (hsigned'.symm.trans hsigned)
        have hpayload := SignedHomeServiceGrant.payload_of_verify hverify'
        rw [SignedHomeServiceGrant.payload_of_verify hverify] at hpayload
        rw [hheld, Option.some.inj hpayload]
    obtain ⟨-, -, -, -, -, -, hall⟩ := approvedGrant_eq_some.mp hboth
    have hnow : approvedGrant codec (some trust) home now = some (some grant) :=
      approvedGrant_eq_some.mpr ⟨signed, endpoint, hsigned, hendpoint, hverify, hid, hall⟩
    obtain ⟨service, hservice, hkey⟩ := hgrants.service
    have hmem : service ∈ home.services := List.mem_of_mem_filter hservice
    exact ⟨home, hhome, grant, ⟨hgrants.homeId, hboth, ⟨service, hmem, hkey⟩, hgrants.allowed⟩,
      ⟨hgrants.homeId, hnow, ⟨service, hmem, hkey⟩, hgrants.allowed⟩⟩
  · rintro ⟨home, hhome, grant, hissued, hnow⟩
    obtain ⟨service, hservice, hid, hprotocol⟩ := hnow.service
    obtain ⟨credential, hcredential, hscope⟩ := hclass
    have hallowed : Allowed credentials home.homeId grant.services service.id service.protocol := by
      refine ⟨credential, hcredential, ?_⟩
      unfold TravelCredential.allowsBusinessService
      rw [hscope, hid, hprotocol, hnow.homeId]
      exact hnow.allowed
    obtain ⟨shown, hshown, hmem⟩ :=
      mem_homeForCredentials.mpr ⟨some grant, hissued.approved, hservice, hallowed⟩
    obtain ⟨held, hheld, rfl⟩ := exists_of_homeForCredentials hshown
    obtain ⟨signed, endpoint, hsigned, hendpoint, hverify, hhomeId, hall⟩ :=
      approvedGrant_eq_some.mp hnow.approved
    have hsub : (servicesForCredentials credentials home held).Sublist home.services :=
      List.filter_sublist
    have hshownNow : approvedGrant codec (some trust)
        { home with services := servicesForCredentials credentials home held } now =
          some (some grant) :=
      approvedGrant_eq_some.mpr ⟨signed, endpoint, hsigned, hendpoint, hverify, hhomeId,
        HomeServiceGrant.validateCatalogServices_sublist hsub hall⟩
    exact ⟨_, List.mem_filterMap.mpr ⟨home, hhome, hshown⟩, grant, hnow.homeId, hshownNow,
      ⟨service, hmem, hid, hprotocol⟩, hnow.allowed⟩

/-- With one grant, that has the service, a class is allowed what it has. -/
theorem grants_of_allowed (binding : ServiceBinding) {credential : TravelCredential}
    (hscope : credential.scope = descriptor.scope) (hhome : home.homeId = binding.homeId)
    (hvalid : (approvedGrant codec (some trust) home now).isSome = true)
    (hservice : ∃ service ∈ home.services, service.id = binding.serviceId ∧
      service.protocol = binding.protocol)
    (hallowed : Allowed [credential] home.homeId (servingConfig codec home).businessServices
      binding.serviceId binding.protocol) :
    ∃ grant, descriptor.Grants codec trust home now binding grant := by
  obtain ⟨held, hheld⟩ := Option.isSome_iff_exists.mp hvalid
  rw [approvedGrant_services hheld] at hallowed
  obtain ⟨other, hother, hallows⟩ := hallowed
  rw [List.mem_singleton.mp hother] at hallows
  unfold TravelCredential.allowsBusinessService at hallows
  rw [hscope, hhome] at hallows
  cases held with
  | none =>
    obtain ⟨_, hnone, -⟩ := allows_iff.mp hallows
    cases hnone
  | some grant => exact ⟨grant, hhome, hheld, hservice, hallows⟩

theorem Grants.allows {credential : TravelCredential}
    (h : descriptor.Grants codec trust home now binding grant)
    (hscope : credential.scope = descriptor.scope) :
    Allowed [credential] home.homeId (servingConfig codec home).businessServices
      binding.serviceId binding.protocol := by
  rw [approvedGrant_services h.approved]
  refine ⟨credential, List.mem_cons_self, ?_⟩
  unfold TravelCredential.allowsBusinessService
  rw [hscope, h.homeId]
  exact h.allowed

/-- The grant was verified with the endpoint credential, whose pins it is reached by. -/
theorem Grants.resolves (h : descriptor.Grants codec trust home now binding grant) :
    (trust.resolveHomeEndpoint codec home.homeId home.endpointCredential now).isSome = true := by
  obtain ⟨signed, endpoint, -, hendpoint, hverify, hid, -⟩ := approvedGrant_eq_some.mp h.approved
  obtain ⟨payload, hpayload, hgrant⟩ := Option.bind_eq_some_iff.mp hverify
  have hbinding := (Option.filter_eq_some_iff.mp hgrant).1
  have hverified := (Option.filter_eq_some_iff.mp hpayload).1
  unfold SignedHomeServiceGrant.verifyBinding at hbinding
  rw [hverified] at hbinding
  have hvalid := (Option.filter_eq_some_iff.mp hbinding).2
  simp only [Bool.and_eq_true, beq_iff_eq] at hvalid
  have hsame : grant.homeId = payload.homeId := by
    obtain ⟨⟨⟨⟨⟨⟨⟨⟨⟨⟨⟨⟨-, -⟩, hsame⟩, -⟩, -⟩, -⟩, -⟩, -⟩, -⟩, -⟩, -⟩, -⟩, -⟩ := hvalid
    exact hsame
  have hhome : payload.homeId = home.homeId := hsame.symm.trans hid
  unfold DeploymentTrust.resolveHomeEndpoint
  rw [hendpoint]
  simp [hpayload, Option.filter_some, hhome]

theorem homeTarget_ids {target : ServiceClassTarget}
    (h : target ∈ descriptor.homeTargets codec trust now home) : target.homeId = home.homeId ∧
      target.id = ServiceClassTarget.idOf home.homeId target.serviceId := by
  unfold homeTargets at h
  split at h
  · split at h
    · split_ifs at h
      · obtain ⟨pair, -, rfl⟩ := List.mem_map.mp h
        exact ⟨rfl, rfl⟩
      · cases h
    · cases h
  · cases h

theorem nodup_homeTargets :
    ((descriptor.homeTargets codec trust now home).map (·.serviceId)).Nodup := by
  unfold homeTargets
  split
  · split
    · next grant hgrant =>
      by_cases hok : (grant.homeId == home.homeId &&
          grant.validateCatalogServices home.services) = true
      · rw [if_pos hok, List.map_map]
        rw [Bool.and_eq_true] at hok
        have hvalid := hok.2
        unfold HomeServiceGrant.validateCatalogServices at hvalid
        rw [Bool.and_eq_true, decide_eq_true_eq] at hvalid
        have hsub : ((descriptor.matching home grant).map fun pair => pair.1.id).Sublist
            (home.services.map (·.id)) := by
          apply Keyed.sublist_map_filterMap
          intro service _ pair hpair
          obtain ⟨approved, -, rfl⟩ := Option.map_eq_some_iff.mp hpair
          rfl
        exact hvalid.1.sublist hsub
      · rw [if_neg hok]
        exact .nil
    · exact .nil
  · exact .nil

/-- Each target has an id of its own. -/
theorem nodup_targets {targets : List ServiceClassTarget}
    (hids : (catalog.homes.map (·.homeId)).Nodup)
    (h : descriptor.targets codec catalog trust now = some targets) :
    (targets.map (·.id)).Nodup := by
  unfold ServiceClassDescriptor.targets at h
  split_ifs at h
  rw [← Option.some.inj h, List.map_flatMap, List.nodup_flatMap]
  constructor
  · intro home _
    have hmap : (descriptor.homeTargets codec trust now home).map (·.id) =
        ((descriptor.homeTargets codec trust now home).map (·.serviceId)).map
          (ServiceClassTarget.idOf home.homeId) := by
      rw [List.map_map]
      exact List.map_congr_left fun target htarget => (homeTarget_ids htarget).2
    rw [hmap]
    exact nodup_homeTargets.map fun _ _ heq => (ServiceClassTarget.idOf_inj heq).2
  · have hapart : catalog.homes.Pairwise fun home other => home.homeId ≠ other.homeId :=
      List.pairwise_map.mp hids
    apply hapart.imp
    intro home other hne
    apply List.disjoint_left.mpr
    intro id hid hid'
    obtain ⟨target, htarget, rfl⟩ := List.mem_map.mp hid
    obtain ⟨target', htarget', heq⟩ := List.mem_map.mp hid'
    rw [(homeTarget_ids htarget).2, (homeTarget_ids htarget').2] at heq
    exact hne (ServiceClassTarget.idOf_inj heq).1.symm

end ServiceClassDescriptor

section
variable {codec : AuthorizationCodec} {authorities : List TrustedTravelAuthority}
  {deploymentId : String} {authorizationSnapshot : TravelAuthorizationSnapshot}
  {authorization : VerifiedAuthorization} {now issued : ℕ} {env : Installation}
  {cached : SignedControlSnapshot} {verified : Control.VerifiedControlSnapshot}
  {catalog : Catalog} {credentials : List TravelCredential} {home : HomeCatalog}
  {descriptor : ServiceClassDescriptor} {credential : TravelCredential}
  {management business : PeerIdentity} {binding : ServiceBinding}

/-- The cached snapshot of a Travel is what the Server signed for credentials of the class. -/
structure ServiceClassDescriptor.Shown (descriptor : ServiceClassDescriptor) (env : Installation)
    (cached : SignedControlSnapshot) (verified : Control.VerifiedControlSnapshot)
    (catalog : Catalog) (credentials : List TravelCredential) (issued : ℕ) : Prop where
  verifies : env.verifyAtIssuance cached = some verified
  subject : Control.requireSubject env verified = true
  shown : verified.payload.catalog =
    catalogForCredentials env.codec catalog credentials (some verified.trust) issued
  ids : (catalog.homes.map (·.homeId)).Nodup
  holds : ∃ credential ∈ credentials, credential.scope = descriptor.scope

namespace ServiceClassDescriptor.Shown

theorem bound (h : descriptor.Shown env cached verified catalog credentials issued) :
    (env.verifyAtIssuance cached).filter (Control.requireSubject env ·) = some verified := by
  rw [h.verifies, Option.filter_some, if_pos h.subject]

theorem shownIds (h : descriptor.Shown env cached verified catalog credentials issued) :
    (verified.payload.catalog.homes.map (·.homeId)).Nodup := by
  rw [h.shown]
  have hsub : ((catalog.homes.filterMap (homeForCredentials env.codec credentials
      (some verified.trust) issued)).map (·.homeId)).Sublist (catalog.homes.map (·.homeId)) := by
    apply Keyed.sublist_map_filterMap
    intro home _ shown hshown
    exact homeId_of_homeForCredentials hshown
  exact h.ids.sublist hsub

theorem offers_iff (h : descriptor.Shown env cached verified catalog credentials issued) :
    descriptor.classBindingAllowed env (some cached) binding now = some true ↔
      descriptor.Offers env.codec verified.payload.catalog verified.trust now binding := by
  unfold classBindingAllowed classTargets Offers
  dsimp only
  rw [h.bound, Option.bind_some, Option.map_eq_some_iff]

theorem pins_iff (h : descriptor.Shown env cached verified catalog credentials issued)
    (hstarted : descriptor.Started verified.trust now) :
    (descriptor.homeBusinessPins env (some cached) binding now).isSome = true ↔
      descriptor.classBindingAllowed env (some cached) binding now = some true := by
  rw [h.offers_iff]
  unfold homeBusinessPins
  rw [Option.bind_some, h.bound, Option.bind_some]
  constructor
  · intro hpins
    obtain ⟨pins, hpins⟩ := Option.isSome_iff_exists.mp hpins
    obtain ⟨targets, htargets, hpins⟩ := Option.bind_eq_some_iff.mp hpins
    exact ⟨targets, htargets, (Option.ite_none_right_eq_some.mp hpins).1⟩
  · intro hoffers
    obtain ⟨home, hhome, grant, hgrants⟩ := (ServiceClassDescriptor.offers_iff hstarted).mp hoffers
    obtain ⟨targets, htargets, hany⟩ := hoffers
    have hfind := (Keyed.find_iff h.shownIds).mpr ⟨hhome, hgrants.homeId⟩
    have hresolves := hgrants.resolves
    rw [hgrants.homeId] at hresolves
    rw [htargets, Option.bind_some, if_pos hany, hfind, Option.bind_some, Option.isSome_map]
    exact hresolves

end ServiceClassDescriptor.Shown

/-- A Travel with a cached snapshot of the Server may open the services of its class that their Home
admits, while the grant of the Home is valid, and it has pins for each. -/
theorem class_bindings_exact (hcodec : env.codec = codec.toCodec)
    (hshown : descriptor.Shown env cached verified catalog credentials issued)
    (hstarted : descriptor.Started verified.trust now) (hm : home ∈ catalog.homes)
    (hv : VerifiedAuthorization.verify codec authorizationSnapshot authorities deploymentId =
      some authorization)
    (hmanagement : management.activeAt now = true)
    (hcredential : authorization.authorizeManagementForHome management now home.homeId =
      some credential)
    (hscope : credential.scope = descriptor.scope) (hbusiness : business.Presents credential now) :
    (∀ serviceId protocol,
      descriptor.classBindingAllowed env (some cached) ⟨home.homeId, serviceId, protocol⟩ now =
          some true ↔
        ((approvedGrant codec.toCodec (some verified.trust) home issued).isSome = true ∧
          (approvedGrant codec.toCodec (some verified.trust) home now).isSome = true) ∧
        Admits authorization (servingConfig codec.toCodec home) management business now serviceId
          protocol) ∧
    (∀ binding, (descriptor.homeBusinessPins env (some cached) binding now).isSome = true ↔
      descriptor.classBindingAllowed env (some cached) binding now = some true) ∧
    ∀ targets, descriptor.classTargets env (some cached) now = some targets →
      (targets.map (·.id)).Nodup := by
  have hc := VerifiedAuthorization.covers_of_verify hv
  have hpresents : ∀ other, authorization.authorizeManagementForHome management now home.homeId =
      some other → business.Presents other now := by
    intro other hother
    rw [hcredential] at hother
    rw [← Option.some.inj hother]
    exact hbusiness
  have hlast := hcredential
  rw [authorizeManagementForHome_eq hc hmanagement] at hlast
  refine ⟨?_, fun binding => hshown.pins_iff hstarted, ?_⟩
  · intro serviceId protocol
    rw [hshown.offers_iff, ServiceClassDescriptor.offers_iff hstarted, hshown.shown,
      ServiceClassDescriptor.shown_grants_iff hshown.holds, hcodec,
      admits_iff hc hmanagement hpresents]
    constructor
    · rintro ⟨other, hother, grant, hissued, hnow⟩
      obtain rfl : other = home := List.inj_on_of_nodup_map hshown.ids hother hm hnow.homeId
      have hgrants : ∀ time, approvedGrant codec.toCodec (some verified.trust) other time =
          some (some grant) →
            (approvedGrant codec.toCodec (some verified.trust) other time).isSome = true := by
        intro time hat
        rw [hat]
        rfl
      exact ⟨⟨hgrants issued hissued.approved, hgrants now hnow.approved⟩, credential, hlast,
        hnow.service, hnow.allows hscope⟩
    · rintro ⟨⟨hissued, hnow⟩, last, hlast', hservice, hallowed⟩
      obtain rfl : credential = last := Option.some.inj (hlast.symm.trans hlast')
      obtain ⟨grant, hgrant⟩ :=
        ServiceClassDescriptor.grants_of_allowed ⟨home.homeId, serviceId, protocol⟩
          hscope rfl hissued hservice hallowed
      obtain ⟨grant', hgrant'⟩ :=
        ServiceClassDescriptor.grants_of_allowed ⟨home.homeId, serviceId, protocol⟩
          hscope rfl hnow hservice hallowed
      obtain rfl := ServiceClassDescriptor.approvedGrant_inj hgrant.approved hgrant'.approved
      exact ⟨home, hm, grant, hgrant, hgrant'⟩
  · intro targets htargets
    unfold ServiceClassDescriptor.classTargets at htargets
    dsimp only at htargets
    rw [hshown.bound, Option.bind_some] at htargets
    exact ServiceClassDescriptor.nodup_targets hshown.shownIds htargets

end

/-! A Travel enrolled for HTTP, and a Home with one service of that class and one that is not. -/
namespace ServiceClassDescriptor

def sampleClassTrust : DeploymentTrust := { sampleDeployment with
  homeEnrollmentAuthorities := [⟨"enrollment-1", 1, "home-1", sampleKey 'e'⟩]
  travelAuthorities := [.global "authority-1" 1 "home-1" (sampleKey 'b')] }

def sampleClass : ServiceClassDescriptor where
  approvingHomeId := "home-1"
  applicationProtocol := "http"
  protocol := .tcp

def enrolledClassCredential : TravelCredential := { sampleCredential with
  scope := sampleClass.scope }

def sampleClassEndpoint : HomeEndpointCredential where
  deploymentId := "deployment-1"
  credentialId := 2
  authorityId := "enrollment-1"
  authorityEpoch := 1
  enrollmentRequestId := 2
  homeId := "home-2"
  managementSpkiSha256 := samplePin '5'
  businessSpkiSha256 := samplePin '6'
  notBeforeUnixSecs := 500
  notAfterUnixSecs := 5000

def sampleClassGrant : HomeServiceGrant where
  deploymentId := "deployment-1"
  authorityId := "enrollment-1"
  authorityEpoch := 1
  homeId := "home-2"
  endpointPayloadSha256 := sampleCodec.sha256 "e2"
  enrollmentRequestSha256 := samplePin '7'
  services := [⟨"web", .tcp, "http", ["read"]⟩, ⟨"mail", .tcp, "smtp", ["read"]⟩]
  notBeforeUnixSecs := 500
  notAfterUnixSecs := 5000

def sampleClassCodec : AuthorizationCodec := { sampleServer.codec with
  trust := fun _ => some sampleClassTrust
  endpoint := fun _ => some sampleClassEndpoint
  grant := fun _ => some sampleClassGrant
  credential := fun _ => some enrolledClassCredential }

def sampleClassHome : HomeCatalog where
  homeId := "home-2"
  homeAlias := "two"
  endpointCredential := some ⟨"enrollment-1", "e2", "e"⟩
  serviceGrant := some ⟨"enrollment-1", "aa", "e"⟩
  services := [⟨"web", "Web", .tcp, "127.0.0.1:80"⟩, ⟨"mail", "Mail", .tcp, "127.0.0.1:25"⟩]

def sampleClassCatalog : Catalog := ⟨1, [sampleClassHome]⟩

def sampleClassPayload : Control.ControlSnapshotPayload where
  deploymentId := "deployment-1"
  serverId := "server-1"
  signerEpoch := 1
  travelId := "travel-1"
  travelManagementSpkiSha256 := samplePin '3'
  generation := 5
  issuedAtUnixSecs := 1000
  expiresAtUnixSecs := 1300
  relayDirectory :=
    ⟨5, [⟨"relay-1", "relay-1.example:8443", "relay-1.example:8444", samplePin '4'⟩]⟩
  catalog := catalogForCredentials sampleClassCodec.toCodec sampleClassCatalog
    [enrolledClassCredential] (some sampleClassTrust) 1000

def sampleClassInstallation : Installation where
  travelId := "travel-1"
  managementSpkiSha256 := samplePin '3'
  homes := []
  deploymentRootPublicKey := sampleKey '0'
  codec := sampleClassCodec.toCodec
  controlSnapshot _ := some sampleClassPayload

def sampleClassCached : SignedControlSnapshot := ⟨⟨"7b7d", "0"⟩, "05", "a"⟩

def sampleClassVerified : Control.VerifiedControlSnapshot :=
  ⟨sampleClassTrust, sampleCodec.sha256 "7b7d", sampleClassPayload, sampleCodec.sha256 "05"⟩

theorem sampleClass_shown : sampleClass.Shown sampleClassInstallation sampleClassCached
    sampleClassVerified sampleClassCatalog [enrolledClassCredential] 1000 where
  verifies := by decide +kernel
  subject := by decide +kernel
  shown := rfl
  ids := List.nodup_singleton "home-2"
  holds := ⟨enrolledClassCredential, List.mem_cons_self, rfl⟩

def sampleClassIdentity (spkiSha256 : String) : PeerIdentity where
  role := .travel
  id := "travel-1"
  spkiSha256 := spkiSha256
  notBeforeUnixSecs := 1
  notAfterUnixSecs := 20000

theorem sampleClassIdentity_presents :
    (sampleClassIdentity (samplePin '4')).Presents enrolledClassCredential 1500 := by
  constructor
  · rfl
  · rfl
  · rfl
  · simp [eqIgnoreAsciiCase, enrolledClassCredential, sampleCredential, sampleClassIdentity]

end ServiceClassDescriptor

open ServiceClassDescriptor in
theorem class_bindings_exact_sample : ∃ authorization : VerifiedAuthorization,
    ∀ serviceId protocol,
      sampleClass.classBindingAllowed sampleClassInstallation (some sampleClassCached)
          ⟨"home-2", serviceId, protocol⟩ 1500 = some true ↔
        ((approvedGrant sampleClassCodec.toCodec (some sampleClassTrust) sampleClassHome
              1000).isSome = true ∧
          (approvedGrant sampleClassCodec.toCodec (some sampleClassTrust) sampleClassHome
              1500).isSome = true) ∧
        Admits authorization (servingConfig sampleClassCodec.toCodec sampleClassHome)
          (sampleClassIdentity (samplePin '3')) (sampleClassIdentity (samplePin '4')) 1500
          serviceId protocol := by
  have hrun : (VerifiedAuthorization.verify sampleClassCodec
      { generation := 2, credentials := [sampleSignedCredential] }
      sampleClassTrust.travelAuthorities "deployment-1").map (fun authorization =>
        authorization.authorizeManagementForHome (sampleClassIdentity (samplePin '3')) 1500
          "home-2") = some (some enrolledClassCredential) := by
    decide +kernel
  obtain ⟨authorization, hv, hselected⟩ := Option.map_eq_some_iff.mp hrun
  have hstarted : sampleClass.Started sampleClassVerified.trust 1500 :=
    ⟨by decide +kernel, by decide, by decide⟩
  exact ⟨authorization, (class_bindings_exact rfl sampleClass_shown hstarted
    (List.mem_singleton_self sampleClassHome) hv rfl hselected rfl
    sampleClassIdentity_presents).1⟩

end FlowSplice
