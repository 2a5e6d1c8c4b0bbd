import FlowSplice.Authorization.Queries
import FlowSplice.Control.Snapshot

/-! What the Server shows a Travel of the Homes: `catalog_for_credentials` of
`server/src/main.rs`. -/
namespace FlowSplice

open Control (Service HomeCatalog Catalog)

/-- `validate_catalog_services`. -/
def HomeServiceGrant.validateCatalogServices (grant : HomeServiceGrant) (services : List Service) :
    Bool :=
  decide (services.map (·.id)).Nodup && services.all fun service =>
    grant.services.any fun approved =>
      approved.serviceId == service.id && approved.protocol == service.protocol

def TravelCredentialScope.isServiceClass : TravelCredentialScope → Bool
  | .serviceClass _ _ => true
  | _ => false

/-- The credentials that `authorize_travel` builds a catalog for. -/
def VerifiedAuthorization.activeCredentials (authorization : VerifiedAuthorization)
    (travelId managementSpkiSha256 : String) (now : ℕ) : List TravelCredential :=
  authorization.credentials.filter fun candidate =>
    candidate.travelId == travelId &&
      eqIgnoreAsciiCase candidate.managementSpkiSha256 managementSpkiSha256 &&
      authorization.isActive candidate.credentialId now

/-- The signed grant of a Home, if it has one. A grant that is not valid hides the Home. -/
def approvedGrant (codec : Codec) (trust : Option DeploymentTrust) (home : HomeCatalog)
    (now : ℕ) : Option (Option HomeServiceGrant) :=
  match home.serviceGrant with
  | none => some none
  | some signed =>
    match trust, home.endpointCredential with
    | some trust, some endpoint =>
      ((signed.verify codec trust endpoint now).filter fun grant =>
        grant.homeId == home.homeId && grant.validateCatalogServices home.services).map some
    | _, _ => none

/-- The services of a Home that the credentials are shown. -/
def servicesForCredentials (credentials : List TravelCredential) (home : HomeCatalog)
    (grant : Option HomeServiceGrant) : List Service :=
  home.services.filter fun service =>
    credentials.any fun credential =>
      credential.allowsBusinessService home.homeId service.id service.protocol
        (grant.bind fun grant => grant.services.find? (·.serviceId == service.id))

def homeForCredentials (codec : Codec) (credentials : List TravelCredential)
    (trust : Option DeploymentTrust) (now : ℕ) (home : HomeCatalog) : Option HomeCatalog :=
  if !credentials.any (·.allowsHome home.homeId) then none
  else (approvedGrant codec trust home now).bind fun grant =>
    if (servicesForCredentials credentials home grant).isEmpty &&
        !credentials.any (fun credential =>
          credential.allowsHome home.homeId && !credential.scope.isServiceClass) then none
    else some { home with services := servicesForCredentials credentials home grant }

def catalogForCredentials (codec : Codec) (catalog : Catalog) (credentials : List TravelCredential)
    (trust : Option DeploymentTrust) (now : ℕ) : Catalog where
  generation := catalog.generation
  homes := catalog.homes.filterMap (homeForCredentials codec credentials trust now)

/-- Some credential allows the service, with what the grant says about it. -/
def Allowed (credentials : List TravelCredential) (homeId : String)
    (businessServices : List BusinessService) (serviceId : String) (protocol : ServiceProtocol) :
    Prop :=
  ∃ credential ∈ credentials, credential.allowsBusinessService homeId serviceId protocol
    (businessServices.find? (·.serviceId == serviceId)) = true

theorem mem_servicesForCredentials {credentials : List TravelCredential} {home : HomeCatalog}
    {grant : Option HomeServiceGrant} {service : Service} :
    service ∈ servicesForCredentials credentials home grant ↔ service ∈ home.services ∧
      Allowed credentials home.homeId ((grant.map (·.services)).getD []) service.id
        service.protocol := by
  have hfind : (grant.bind fun grant => grant.services.find? (·.serviceId == service.id)) =
      ((grant.map (·.services)).getD []).find? (·.serviceId == service.id) := by
    cases grant <;> rfl
  unfold servicesForCredentials Allowed
  rw [List.mem_filter, hfind, List.any_eq_true]

theorem homeId_of_homeForCredentials {codec : Codec} {credentials : List TravelCredential}
    {trust : Option DeploymentTrust} {now : ℕ} {home shown : HomeCatalog}
    (h : homeForCredentials codec credentials trust now home = some shown) :
    shown.homeId = home.homeId := by
  unfold homeForCredentials at h
  split_ifs at h
  obtain ⟨grant, -, h⟩ := Option.bind_eq_some_iff.mp h
  split_ifs at h
  rw [← Option.some.inj h]

/-- What is shown of a Home: the services that some credential allows, if its grant is valid. -/
theorem mem_homeForCredentials {codec : Codec} {credentials : List TravelCredential}
    {trust : Option DeploymentTrust} {now : ℕ} {home : HomeCatalog} {service : Service} :
    (∃ shown, homeForCredentials codec credentials trust now home = some shown ∧
      service ∈ shown.services) ↔
    ∃ grant, approvedGrant codec trust home now = some grant ∧ service ∈ home.services ∧
      Allowed credentials home.homeId ((grant.map (·.services)).getD []) service.id
        service.protocol := by
  unfold homeForCredentials
  constructor
  · rintro ⟨shown, h, hm⟩
    split_ifs at h
    obtain ⟨grant, hgrant, h⟩ := Option.bind_eq_some_iff.mp h
    split_ifs at h
    have heq := Option.some.inj h
    subst heq
    exact ⟨grant, hgrant, mem_servicesForCredentials.mp hm⟩
  · rintro ⟨grant, hgrant, hs⟩
    have hmem := mem_servicesForCredentials.mpr hs
    have hhome : credentials.any (·.allowsHome home.homeId) = true := by
      obtain ⟨-, credential, hc, hok⟩ := hs
      have hallowed := TravelCredentialScope.allowsHome_of_allowsBusinessService hok
      exact List.any_eq_true.mpr ⟨credential, hc, hallowed⟩
    have hempty : (servicesForCredentials credentials home grant).isEmpty = false := by
      rw [List.isEmpty_eq_false_iff]
      exact List.ne_nil_of_mem hmem
    refine ⟨{ home with services := servicesForCredentials credentials home grant }, ?_, hmem⟩
    rw [hhome, hgrant, Option.bind_some, hempty]
    rfl

end FlowSplice
