import FlowSplice.Relay.Authorization

/-! The sockets that a Relay joins: which claims are paired, and what an update of the authorization
leaves of them. -/
namespace FlowSplice.Relay

namespace PendingRoute

/-- The route as it was registered. -/
def vacant (route : PendingRoute) : PendingRoute := { route with travel := none, home := none }

/-- What the preface of a side names. -/
def expectedId (route : PendingRoute) (routeId : Uuid) : RouteSide → Uuid
  | .travel => routeId
  | .home => route.workId

def secret (route : PendingRoute) : RouteSide → Bytes
  | .travel => route.routeSecret
  | .home => route.workSecret

def socket (route : PendingRoute) : RouteSide → Option Admitted
  | .travel => route.travel
  | .home => route.home

theorem validateAdmission_ok {route : PendingRoute} {config : Config} {routeId : Uuid}
    {preface : RoutePreface} {mac : Bytes} {now : ℕ}
    (h : route.validateAdmission config routeId preface mac now = .ok ()) :
    preface.id = route.expectedId routeId preface.side ∧ now < route.expires ∧
      config.verifyPreface preface mac (route.secret preface.side) = true ∧
      route.socket preface.side = none := by
  unfold validateAdmission at h
  cases hside : preface.side <;> simp only [hside] at h <;>
    split_ifs at h with hid hexpired hmac hoccupied
  all_goals
    refine ⟨not_not.mp hid, Nat.lt_of_not_le hexpired, ?_, ?_⟩
    · simpa [secret] using hmac
    · simpa [socket] using hoccupied

theorem vacant_withSocket (route : PendingRoute) (admitted : Admitted) :
    (route.withSocket admitted).vacant = route.vacant := by
  unfold withSocket
  cases admitted.preface.side <;> rfl

theorem socket_withSocket (route : PendingRoute) (admitted : Admitted) (side : RouteSide) :
    (route.withSocket admitted).socket side =
      if side = admitted.preface.side then some admitted else route.socket side := by
  unfold withSocket
  cases admitted.preface.side <;> cases side <;> rfl

theorem waiting_iff {route : PendingRoute} :
    route.Waiting ↔ ∃ side admitted, route.socket side = some admitted := by
  constructor
  · rintro (h | h)
    · obtain ⟨admitted, h⟩ := Option.isSome_iff_exists.mp h
      exact ⟨.travel, admitted, h⟩
    · obtain ⟨admitted, h⟩ := Option.isSome_iff_exists.mp h
      exact ⟨.home, admitted, h⟩
  · rintro ⟨side, admitted, h⟩
    cases side with
    | travel => exact .inl (Option.isSome_iff_exists.mpr ⟨admitted, h⟩)
    | home => exact .inr (Option.isSome_iff_exists.mpr ⟨admitted, h⟩)

end PendingRoute

/-- What was checked of a socket that was admitted to a side of a route: it was the claim of that
side, of a route that had been registered, before the route expired and while its credential was
active. -/
structure Presents (config : Config) (s : Sys) (routeId : Uuid) (route : PendingRoute)
    (side : RouteSide) (admitted : Admitted) : Prop where
  claimed : s.claims[admitted.socket]? = some (routeId, side)
  preface : admitted.preface = ⟨side, route.expectedId routeId side⟩
  mac : config.verifyPreface admitted.preface admitted.mac (route.secret side) = true
  registered : (routeId, route.vacant) ∈ s.registered.take admitted.registrations
  unexpired : admitted.instant < route.expires
  published : ∃ p ∈ s.published, p.authorization = admitted.authorization
  active : admitted.authorization.isActive route.credentialId admitted.clock = true

namespace Sys
variable {config : Config} {s s' : Sys} {a : Action}

/-- No update that is published revokes the credential, and it was found active under the last one,
not before that was applied. -/
def Clear (s : Sys) (credentialId : Uuid) : Prop :=
  (∀ p ∈ s.published, credentialId ∉ p.authorization.revokedCredentials) ∧
    ∃ p now, s.published.getLast? = some p ∧ p.appliedAt ≤ now ∧ now ≤ s.clock ∧
      p.authorization.isActive credentialId now = true

/-- Routes are paired safely, and no connection outlasts its credential: one that waits is removed,
and a pair that has an update to look at has a step to take. -/
structure Safe (config : Config) (s : Sys) : Prop where
  pairs : ∀ i pair, s.pairs.get i = some pair →
    Presents config s pair.routeId pair.route .travel pair.travel ∧
      Presents config s pair.routeId pair.route .home pair.home
  claimedOnce : s.claims.Nodup
  joinedOnce : s.joined.Nodup
  waiting : ∀ routeId route, s.routes.lookup routeId = some route → route.Waiting →
    s.Clear route.credentialId
  paired : ∀ i pair, s.pairs.get i = some pair →
    (∀ a ∈ [Action.subscribe i, .check i, .wake i], s.step config a = none) →
      s.Clear pair.route.credentialId

/-- Publications are in the order of acceptance, and no route is claimed between the cleanup of an
update that ends its credential and its publication. -/
def timely (s : Sys) : Action → Prop
  | .publish session => s.inOrder (.publish session)
  | .claim _ routeId => ∀ route ∈ s.routes.lookup routeId, ∀ call ∈ s.calls.values,
      ∀ now ∈ call.retained, call.authorization.isActive route.credentialId now = true
  | _ => True

instance (s : Sys) (action : Action) : Decidable (s.timely action) :=
  match action with
  | .publish session => inferInstanceAs (Decidable (s.inOrder (.publish session)))
  | .claim _ _ => inferInstanceAs (Decidable (∀ _ ∈ _, _))
  | .tick _ _ | .receive _ _ _ | .retain _ | .register _ _ _ _ | .unregister _ | .cleanup
  | .subscribe _ | .check _ | .wake _ | .expire _ | .finish _ => inferInstanceAs (Decidable True)

theorem inOrder_of_timely (h : s.timely a) : s.inOrder a := by
  cases a with
  | publish session => exact h
  | _ => trivial

theorem admission_ok {routeId : Uuid} {route : PendingRoute} {preface : RoutePreface} {mac : Bytes}
    {admitted : Admitted} (h : s.admission config routeId route preface mac = .ok admitted) :
    ∃ p, s.published.getLast? = some p ∧
      admitted = ⟨s.claims.length, preface, mac, s.instant, s.clock, p.authorization,
        s.registered.length⟩ ∧
      p.authorization.isActive route.credentialId s.clock = true ∧
      preface.id = route.expectedId routeId preface.side ∧ s.instant < route.expires ∧
      config.verifyPreface preface mac (route.secret preface.side) = true ∧
      route.socket preface.side = none := by
  unfold admission at h
  split_ifs at h
  split at h
  · cases h
  · next p hp =>
    split_ifs at h with hactive
    obtain ⟨⟨⟩, hvalid, rfl⟩ := map_ok h
    refine ⟨p, hp, rfl, ?_, PendingRoute.validateAdmission_ok hvalid⟩
    simpa using hactive

/-- The logs that `Presents` refers to have grown. -/
structure Extends (s s' : Sys) : Prop where
  claims : s.claims <+: s'.claims
  registered : s.registered <+: s'.registered
  published : s.published <+: s'.published

end Sys

variable {config : Config} {s s' : Sys} {a : Action} {routeId : Uuid} {route route' : PendingRoute}
  {side : RouteSide} {admitted : Admitted}

theorem Presents.mono (h : Presents config s routeId route side admitted) (he : s.Extends s') :
    Presents config s' routeId route side admitted := by
  obtain ⟨claims, hclaims⟩ := he.claims
  obtain ⟨p, hp, heq⟩ := h.published
  refine ⟨?_, h.preface, h.mac, ?_, h.unexpired, ⟨p, he.published.subset hp, heq⟩, h.active⟩
  · obtain ⟨hlt, -⟩ := List.getElem?_eq_some_iff.mp h.claimed
    rw [← hclaims, List.getElem?_append_left hlt]
    exact h.claimed
  · exact (he.registered.take _).subset h.registered

/-- The sockets at a route do not matter to what one of them presented. -/
theorem Presents.congr (h : Presents config s routeId route side admitted)
    (hv : route'.vacant = route.vacant) : Presents config s routeId route' side admitted := by
  have hworkId : route'.vacant.workId = route.vacant.workId := by rw [hv]
  have hrouteSecret : route'.vacant.routeSecret = route.vacant.routeSecret := by rw [hv]
  have hworkSecret : route'.vacant.workSecret = route.vacant.workSecret := by rw [hv]
  have hexpires : route'.vacant.expires = route.vacant.expires := by rw [hv]
  have hcredential : route'.vacant.credentialId = route.vacant.credentialId := by rw [hv]
  have hid : route'.expectedId routeId side = route.expectedId routeId side := by
    cases side with
    | travel => rfl
    | home => exact hworkId
  have hsecret : route'.secret side = route.secret side := by
    cases side with
    | travel => exact hrouteSecret
    | home => exact hworkSecret
  constructor
  · exact h.claimed
  · rw [hid]
    exact h.preface
  · rw [hsecret]
    exact h.mac
  · rw [hv]
    exact h.registered
  · exact hexpires ▸ h.unexpired
  · exact h.published
  · exact hcredential ▸ h.active

namespace Sys

/-- Every socket at a route or in a pair was the one claim of its side. -/
structure Claimed (config : Config) (s : Sys) : Prop where
  claims : s.claims.Nodup
  known : ∀ claim ∈ s.claims, claim.1 ∈ s.registered.map (·.1)
  free : ∀ routeId route, s.routes.lookup routeId = some route → ∀ side,
    route.socket side = none → (routeId, side) ∉ s.claims
  registered : ∀ routeId route, s.routes.lookup routeId = some route →
    (routeId, route.vacant) ∈ s.registered
  presents : ∀ routeId route, s.routes.lookup routeId = some route → ∀ side admitted,
    route.socket side = some admitted → Presents config s routeId route side admitted
  joined : s.joined.Nodup
  gone : ∀ routeId ∈ s.joined,
    routeId ∈ s.registered.map (·.1) ∧ s.routes.lookup routeId = none
  pairs : ∀ i pair, s.pairs.get i = some pair →
    Presents config s pair.routeId pair.route .travel pair.travel ∧
      Presents config s pair.routeId pair.route .home pair.home

/-- Routes may be dropped and pairs closed. -/
theorem Claimed.frame (hi : s.Claimed config) (hclaims : s'.claims = s.claims)
    (hregistered : s'.registered = s.registered) (hjoined : s'.joined = s.joined)
    (hpublished : s.published <+: s'.published)
    (hroutes : ∀ routeId route, s'.routes.lookup routeId = some route →
      s.routes.lookup routeId = some route)
    (hpairs : ∀ i pair, s'.pairs.get i = some pair → ∃ watch,
      s.pairs.get i = some { pair with watch := watch }) : s'.Claimed config := by
  have he : s.Extends s' := by
    refine ⟨?_, ?_, hpublished⟩
    · rw [hclaims]
    · rw [hregistered]
  constructor
  · rw [hclaims]
    exact hi.claims
  · rw [hclaims, hregistered]
    exact hi.known
  · rw [hclaims]
    exact fun routeId route hl => hi.free routeId route (hroutes routeId route hl)
  · rw [hregistered]
    exact fun routeId route hl => hi.registered routeId route (hroutes routeId route hl)
  · intro routeId route hl side admitted hs
    exact (hi.presents routeId route (hroutes routeId route hl) side admitted hs).mono he
  · rw [hjoined]
    exact hi.joined
  · rw [hjoined, hregistered]
    intro routeId hj
    obtain ⟨hknown, hnone⟩ := hi.gone routeId hj
    refine ⟨hknown, ?_⟩
    cases hl : s'.routes.lookup routeId with
    | none => rfl
    | some route =>
      have hl := hroutes routeId route hl
      rw [hnone] at hl
      cases hl
  · intro i pair hp
    obtain ⟨watch, hp⟩ := hpairs i pair hp
    obtain ⟨htravel, hhome⟩ := hi.pairs i _ hp
    exact ⟨htravel.mono he, hhome.mono he⟩

theorem Claimed.register (hi : s.Claimed config) (hfresh : routeId ∉ s.registered.map (·.1))
    (hvacant : route.travel = none ∧ route.home = none) :
    Claimed config { s with
      routes := s.routes.insert routeId route
      registered := s.registered ++ [(routeId, route)] } := by
  have he : s.Extends { s with
      routes := s.routes.insert routeId route
      registered := s.registered ++ [(routeId, route)] } :=
    ⟨List.prefix_refl _, List.prefix_append _ _, List.prefix_refl _⟩
  have hroute : route.vacant = route := by
    obtain ⟨htravel, hhome⟩ := hvacant
    cases route
    simp_all [PendingRoute.vacant]
  have hsocket : ∀ side, route.socket side = none := fun side => by
    cases side with
    | travel => exact hvacant.1
    | home => exact hvacant.2
  have hgrown : ∀ {id : Uuid}, id ∈ s.registered.map (·.1) →
      id ∈ (s.registered ++ [(routeId, route)]).map (·.1) := fun hm => by
    rw [List.map_append]
    exact List.mem_append_left _ hm
  constructor
  · exact hi.claims
  · exact fun claim hc => hgrown (hi.known claim hc)
  · intro id found hl side hs
    rcases Table.lookup_insert_cases hl with ⟨rfl, rfl⟩ | ⟨-, hl⟩
    · exact fun hc => hfresh (hi.known _ hc)
    · exact hi.free id found hl side hs
  · intro id found hl
    rcases Table.lookup_insert_cases hl with ⟨rfl, rfl⟩ | ⟨-, hl⟩
    · rw [hroute]
      exact Log.mem_append_self
    · exact List.mem_append_left _ (hi.registered id found hl)
  · intro id found hl side admitted hs
    rcases Table.lookup_insert_cases hl with ⟨rfl, rfl⟩ | ⟨-, hl⟩
    · rw [hsocket side] at hs
      cases hs
    · exact (hi.presents id found hl side admitted hs).mono he
  · exact hi.joined
  · intro id hj
    obtain ⟨hknown, hnone⟩ := hi.gone id hj
    refine ⟨hgrown hknown, ?_⟩
    have hne : id ≠ routeId := by
      rintro rfl
      exact hfresh hknown
    show (s.routes.insert routeId route).lookup id = none
    rw [AList.lookup_insert_ne hne]
    exact hnone
  · intro i pair hp
    obtain ⟨htravel, hhome⟩ := hi.pairs i pair hp
    exact ⟨htravel.mono he, hhome.mono he⟩

theorem admitSocket_cases (s : Sys) (routeId : Uuid) (route : PendingRoute) (admitted : Admitted) :
    (∃ travel home, (route.withSocket admitted).travel = some travel ∧
      (route.withSocket admitted).home = some home ∧
      s.admitSocket routeId route admitted = { s with
        claims := s.claims ++ [(routeId, admitted.preface.side)]
        routes := s.routes.erase routeId
        pairs := s.pairs.push { routeId, route := route.withSocket admitted, travel, home }
        joined := s.joined ++ [routeId] }) ∨
    s.admitSocket routeId route admitted = { s with
      claims := s.claims ++ [(routeId, admitted.preface.side)]
      routes := s.routes.insert routeId (route.withSocket admitted) } := by
  unfold admitSocket
  dsimp only
  split
  · next travel home htravel hhome => exact .inl ⟨travel, home, htravel, hhome, rfl⟩
  · exact .inr rfl

/-- A claim is new, and the sockets at the route are as they were claimed. -/
theorem Claimed.sockets {preface : RoutePreface} {mac : Bytes} (hi : s.Claimed config)
    (hroute : s.routes.lookup routeId = some route)
    (hadmitted : s.admission config routeId route preface mac = .ok admitted)
    (hs' : s'.claims = s.claims ++ [(routeId, admitted.preface.side)])
    (hregistered : s'.registered = s.registered) (hpublished : s'.published = s.published) :
    s.Extends s' ∧ s'.claims.Nodup ∧ ∀ side other,
      (route.withSocket admitted).socket side = some other →
        Presents config s' routeId (route.withSocket admitted) side other := by
  obtain ⟨p, hp, rfl, hactive, hid, hexpires, hmac, hfree⟩ := admission_ok hadmitted
  have he : s.Extends s' := by
    refine ⟨?_, ?_, ?_⟩
    · rw [hs']
      exact List.prefix_append _ _
    · rw [hregistered]
    · rw [hpublished]
  refine ⟨he, ?_, ?_⟩
  · have hnew := hi.free routeId route hroute preface.side hfree
    rw [hs']
    refine Log.pairwise_append hi.claims ?_
    rintro claim hclaim rfl
    exact hnew hclaim
  · intro side other hsocket
    rw [PendingRoute.socket_withSocket] at hsocket
    split_ifs at hsocket with hside
    · subst hside
      rw [← Option.some.inj hsocket]
      refine Presents.congr ⟨?_, ?_, hmac, ?_, hexpires, ?_, hactive⟩
        (PendingRoute.vacant_withSocket _ _)
      · show s'.claims[s.claims.length]? = _
        rw [hs', List.getElem?_concat_length]
      · exact congrArg (RoutePreface.mk preface.side) hid
      · show (routeId, route.vacant) ∈ s'.registered.take s.registered.length
        rw [hregistered, List.take_length]
        exact hi.registered routeId route hroute
      · exact ⟨p, he.published.subset (List.mem_of_getLast? hp), rfl⟩
    · exact ((hi.presents routeId route hroute side other hsocket).mono he).congr
        (PendingRoute.vacant_withSocket _ _)

theorem Claimed.wait {preface : RoutePreface} {mac : Bytes} (hi : s.Claimed config)
    (hroute : s.routes.lookup routeId = some route)
    (hadmitted : s.admission config routeId route preface mac = .ok admitted) :
    Claimed config { s with
      claims := s.claims ++ [(routeId, admitted.preface.side)]
      routes := s.routes.insert routeId (route.withSocket admitted) } := by
  obtain ⟨he, hclaims, hsockets⟩ : s.Extends { s with
      claims := s.claims ++ [(routeId, admitted.preface.side)]
      routes := s.routes.insert routeId (route.withSocket admitted) } ∧ _ ∧ _ :=
    hi.sockets hroute hadmitted rfl rfl rfl
  have hregistered := hi.registered routeId route hroute
  constructor
  · exact hclaims
  · exact Log.forall_append hi.known (List.mem_map_of_mem hregistered)
  · intro id found hl side hs hclaim
    rcases List.mem_append.mp hclaim with hold | hnew
    · rcases Table.lookup_insert_cases hl with ⟨rfl, rfl⟩ | ⟨-, hl⟩
      · rw [PendingRoute.socket_withSocket] at hs
        split_ifs at hs
        exact hi.free id route hroute side hs hold
      · exact hi.free id found hl side hs hold
    · obtain ⟨rfl, rfl⟩ := Prod.mk.inj (List.mem_singleton.mp hnew)
      rcases Table.lookup_insert_cases hl with ⟨-, rfl⟩ | ⟨hne, -⟩
      · simp [PendingRoute.socket_withSocket] at hs
      · exact hne rfl
  · intro id found hl
    rcases Table.lookup_insert_cases hl with ⟨rfl, rfl⟩ | ⟨-, hl⟩
    · rw [PendingRoute.vacant_withSocket]
      exact hregistered
    · exact hi.registered id found hl
  · intro id found hl side other hs
    rcases Table.lookup_insert_cases hl with ⟨rfl, rfl⟩ | ⟨-, hl⟩
    · exact hsockets side other hs
    · exact (hi.presents id found hl side other hs).mono he
  · exact hi.joined
  · intro id hj
    obtain ⟨hknown, hnone⟩ := hi.gone id hj
    refine ⟨hknown, ?_⟩
    have hne : id ≠ routeId := by
      rintro rfl
      rw [hroute] at hnone
      cases hnone
    show (s.routes.insert routeId _).lookup id = none
    rw [AList.lookup_insert_ne hne]
    exact hnone
  · intro i pair hp
    obtain ⟨htravel, hhome⟩ := hi.pairs i pair hp
    exact ⟨htravel.mono he, hhome.mono he⟩

theorem Claimed.join {preface : RoutePreface} {mac : Bytes} {travel home : Admitted}
    (hi : s.Claimed config) (hroute : s.routes.lookup routeId = some route)
    (hadmitted : s.admission config routeId route preface mac = .ok admitted)
    (htravel : (route.withSocket admitted).travel = some travel)
    (hhome : (route.withSocket admitted).home = some home) :
    Claimed config { s with
      claims := s.claims ++ [(routeId, admitted.preface.side)]
      routes := s.routes.erase routeId
      pairs := s.pairs.push { routeId, route := route.withSocket admitted, travel, home }
      joined := s.joined ++ [routeId] } := by
  obtain ⟨he, hclaims, hsockets⟩ : s.Extends { s with
      claims := s.claims ++ [(routeId, admitted.preface.side)]
      routes := s.routes.erase routeId
      pairs := s.pairs.push { routeId, route := route.withSocket admitted, travel, home }
      joined := s.joined ++ [routeId] } ∧ _ ∧ _ := hi.sockets hroute hadmitted rfl rfl rfl
  have hregistered := List.mem_map_of_mem (f := Prod.fst) (hi.registered routeId route hroute)
  constructor
  · exact hclaims
  · exact Log.forall_append hi.known hregistered
  · intro id found hl side hs hclaim
    obtain ⟨hne, hl⟩ := Table.lookup_erase_cases hl
    rcases List.mem_append.mp hclaim with hclaim | hclaim
    · exact hi.free id found hl side hs hclaim
    · exact hne (Prod.mk.inj (List.mem_singleton.mp hclaim)).1
  · exact fun id found hl => hi.registered id found (Table.lookup_erase_cases hl).2
  · intro id found hl side other hs
    exact (hi.presents id found (Table.lookup_erase_cases hl).2 side other hs).mono he
  · refine Log.pairwise_append hi.joined ?_
    rintro id hj rfl
    have hnone := (hi.gone id hj).2
    rw [hroute] at hnone
    cases hnone
  · refine Log.forall_append (fun id hj => ?_) ⟨hregistered, AList.lookup_erase _ _⟩
    obtain ⟨hknown, hnone⟩ := hi.gone id hj
    refine ⟨hknown, ?_⟩
    cases hl : (s.routes.erase routeId).lookup id with
    | none => rfl
    | some found =>
      have hl := (Table.lookup_erase_cases hl).2
      rw [hnone] at hl
      cases hl
  · intro i pair hp
    rcases Slots.get_push_cases hp with ⟨-, rfl⟩ | ⟨-, hp⟩
    · exact ⟨hsockets .travel travel htravel, hsockets .home home hhome⟩
    · obtain ⟨htravel, hhome⟩ := hi.pairs i pair hp
      exact ⟨htravel.mono he, hhome.mono he⟩

theorem Claimed.step (hi : s.Claimed config) (h : s.Moves config a s') : s'.Claimed config := by
  have hsame : ∀ i pair, s.pairs.get i = some pair → ∃ watch,
      s.pairs.get i = some { pair with watch := watch } := fun i pair hp => ⟨pair.watch, hp⟩
  cases h with
  | same => exact hi
  | register a routeId route hfresh hvacant => exact hi.register hfresh hvacant
  | admitSocket bytes mac routeId preface route admitted hroute hadmitted =>
    rcases s.admitSocket_cases routeId route admitted with ⟨travel, home, htravel, hhome, heq⟩ | heq
    · rw [heq]
      exact hi.join hroute hadmitted htravel hhome
    · rw [heq]
      exact hi.wait hroute hadmitted
  | tick | accept =>
    exact hi.frame rfl rfl rfl (List.prefix_refl _) (fun _ _ hl => hl) hsame
  | retain session authorization ticket hcall =>
    refine hi.frame rfl rfl rfl (List.prefix_refl _) (fun id found hl => ?_) hsame
    rw [Table.lookup_retain] at hl
    exact (Option.filter_eq_some_iff.mp hl).1
  | publish => exact hi.frame rfl rfl rfl (List.prefix_append _ _) (fun _ _ hl => hl) hsame
  | drop a routes hroutes => exact hi.frame rfl rfl rfl (List.prefix_refl _) hroutes hsame
  | watch a i pair watch hpair =>
    refine hi.frame rfl rfl rfl (List.prefix_refl _) (fun _ _ hl => hl) fun j found hp => ?_
    rcases Slots.get_set_cases hp with ⟨rfl, hfound, -⟩ | ⟨-, hp⟩
    · rw [← Option.some.inj hfound]
      exact ⟨pair.watch, hpair⟩
    · exact ⟨found.watch, hp⟩
  | close a i =>
    refine hi.frame rfl rfl rfl (List.prefix_refl _) (fun _ _ hl => hl) fun j found hp => ?_
    rcases Slots.get_set_cases hp with ⟨-, hfound, -⟩ | ⟨-, hp⟩
    · cases hfound
    · exact ⟨found.watch, hp⟩

theorem Claimed.initial (cache : AuthorizationCache) :
    Claimed config (machine config cache).start := by
  constructor <;> simp [machine]

/-- A connection that waits is clear, and stays so when a call that has cleaned up the routes
publishes; a pair that has seen the last update is clear. -/
structure Confined (s : Sys) : Prop where
  ordered : s.Ordered
  applied : ∀ p ∈ s.published, p.appliedAt ≤ s.clock
  retained : ∀ session call, s.calls.lookup session = some call → ∀ now ∈ call.retained,
    now ≤ s.clock ∧ ∀ routeId route, s.routes.lookup routeId = some route → route.Waiting →
      call.authorization.isActive route.credentialId now = true
  waiting : ∀ routeId route, s.routes.lookup routeId = some route → route.Waiting →
    s.Clear route.credentialId
  checking : ∀ i pair seen, s.pairs.get i = some pair → pair.watch = .checking seen →
    seen ≤ s.published.length
  watching : ∀ i pair seen notAfter, s.pairs.get i = some pair →
    pair.watch = .waiting seen notAfter → seen ≤ s.published.length ∧
      (seen = s.published.length → s.Clear pair.route.credentialId)

theorem Clear.later {credentialId : Uuid} (h : s.Clear credentialId)
    (hpublished : s'.published = s.published) (hclock : s.clock ≤ s'.clock) :
    s'.Clear credentialId := by
  obtain ⟨hrevoked, p, now, hp, happlied, hnow, hactive⟩ := h
  rw [Clear, hpublished]
  exact ⟨hrevoked, p, now, hp, happlied, hnow.trans hclock, hactive⟩

theorem not_mem_revoked {authorization : VerifiedAuthorization} {credentialId : Uuid} {now : ℕ}
    (h : authorization.isActive credentialId now = true) :
    credentialId ∉ authorization.revokedCredentials := by
  intro hrevoked
  rw [VerifiedAuthorization.isActive_of_revoked hrevoked] at h
  cases h

/-- A credential that is active now is clear. -/
theorem Confined.clear (hi : s.Confined) {p : Published} {credentialId : Uuid}
    (hp : s.published.getLast? = some p)
    (hactive : p.authorization.isActive credentialId s.clock = true) : s.Clear credentialId := by
  refine ⟨fun older holder hrevoked => ?_, p, s.clock, hp, hi.applied p (List.mem_of_getLast? hp),
    le_rfl, hactive⟩
  rcases Log.rel_of_getLast? hi.ordered.precedes hp holder with hprecedes | rfl
  · exact not_mem_revoked hactive (hprecedes.2 hrevoked)
  · exact not_mem_revoked hactive hrevoked

theorem ensureCredentialActive_eq_some {credentialId : Uuid} {notAfter : ℕ}
    (h : s.ensureCredentialActive credentialId = some notAfter) :
    ∃ p, s.published.getLast? = some p ∧
      p.authorization.isActive credentialId s.clock = true := by
  obtain ⟨p, hp, h⟩ := Option.bind_eq_some_iff.mp h
  split_ifs at h with hactive
  exact ⟨p, hp, hactive⟩

theorem Confined.initial (cache : AuthorizationCache) : Confined (machine config cache).start := by
  constructor
  · exact Ordered.initial cache
  all_goals simp [machine]

/-- Nothing is published or claimed. -/
theorem Confined.frame (hi : s.Confined) (hordered : s'.Ordered)
    (hpublished : s'.published = s.published) (hclock : s.clock ≤ s'.clock)
    (hcalls : ∀ session call, s'.calls.lookup session = some call → ∀ now ∈ call.retained,
      s.calls.lookup session = some call ∨ now ≤ s.clock ∧ ∀ routeId route,
        s'.routes.lookup routeId = some route → route.Waiting →
          call.authorization.isActive route.credentialId now = true)
    (hroutes : ∀ routeId route, s'.routes.lookup routeId = some route → route.Waiting →
      s.routes.lookup routeId = some route)
    (hpairs : ∀ i pair, s'.pairs.get i = some pair → s.pairs.get i = some pair) :
    s'.Confined := by
  constructor
  · exact hordered
  · rw [hpublished]
    exact fun p hp => (hi.applied p hp).trans hclock
  · intro session call hcall now hnow
    rcases hcalls session call hcall now hnow with hold | ⟨hle, hactive⟩
    · obtain ⟨hle, hactive⟩ := hi.retained session call hold now hnow
      exact ⟨hle.trans hclock, fun routeId route hl hw =>
        hactive routeId route (hroutes routeId route hl hw) hw⟩
    · exact ⟨hle.trans hclock, hactive⟩
  · intro routeId route hl hw
    exact (hi.waiting routeId route (hroutes routeId route hl hw) hw).later hpublished hclock
  · rw [hpublished]
    exact fun i pair seen hp => hi.checking i pair seen (hpairs i pair hp)
  · intro i pair seen notAfter hp hwatch
    obtain ⟨hle, hclear⟩ := hi.watching i pair seen notAfter (hpairs i pair hp) hwatch
    rw [hpublished]
    exact ⟨hle, fun heq => (hclear heq).later hpublished hclock⟩

theorem Confined.publish {session : Uuid} {authorization : VerifiedAuthorization}
    {ticket appliedAt : ℕ} (hi : s.Confined)
    (hcall : s.calls.lookup session = some ⟨authorization, ticket, some appliedAt⟩)
    (hordered : Ordered { s with
      published := s.published ++ [⟨authorization, ticket, appliedAt⟩]
      calls := s.calls.erase session }) :
    Confined { s with
      published := s.published ++ [⟨authorization, ticket, appliedAt⟩]
      calls := s.calls.erase session } := by
  obtain ⟨hle, hactive⟩ := hi.retained session _ hcall appliedAt rfl
  have hlen : (s.published ++ [(⟨authorization, ticket, appliedAt⟩ : Published)]).length =
      s.published.length + 1 := List.length_append
  constructor
  · exact hordered
  · exact Log.forall_append hi.applied hle
  · intro session' call hcall'
    exact hi.retained session' call (Table.lookup_erase_cases hcall').2
  · intro routeId route hl hw
    have hnow := hactive routeId route hl hw
    refine ⟨Log.forall_append (hi.waiting routeId route hl hw).1 (not_mem_revoked hnow), ?_⟩
    exact ⟨_, appliedAt, Log.getLast?_append, le_rfl, hle, hnow⟩
  · intro i pair seen hp hwatch
    have hseen := hi.checking i pair seen hp hwatch
    show seen ≤ (s.published ++ [_]).length
    omega
  · intro i pair seen notAfter hp hwatch
    have hseen := (hi.watching i pair seen notAfter hp hwatch).1
    show seen ≤ (s.published ++ [_]).length ∧ (seen = (s.published ++ [_]).length → _)
    constructor
    · omega
    · intro heq
      omega

/-- A claim makes the connections of one route wait, or joins them. -/
theorem Confined.admitSocket {bytes mac : Bytes} {preface : RoutePreface} (hi : s.Confined)
    (hok : s.timely (.claim bytes routeId)) (hroute : s.routes.lookup routeId = some route)
    (hadmitted : s.admission config routeId route preface mac = .ok admitted)
    (hordered : s'.Ordered) (hpublished : s'.published = s.published) (hclock : s'.clock = s.clock)
    (hcalls : s'.calls = s.calls)
    (hroutes : ∀ id found, s'.routes.lookup id = some found →
      found.credentialId = route.credentialId ∨ s.routes.lookup id = some found)
    (hpairs : ∀ i pair, s'.pairs.get i = some pair →
      pair.watch = .paired ∨ s.pairs.get i = some pair) : s'.Confined := by
  obtain ⟨p, hp, -, hactive, -⟩ := admission_ok hadmitted
  have hclear := hi.clear hp hactive
  constructor
  · exact hordered
  · rw [hpublished, hclock]
    exact hi.applied
  · rw [hcalls, hclock]
    intro session call hcall now hnow
    obtain ⟨hle, hretained⟩ := hi.retained session call hcall now hnow
    refine ⟨hle, fun id found hl hw => ?_⟩
    rcases hroutes id found hl with hsame | hold
    · rw [hsame]
      exact hok route hroute call (Table.mem_values.mpr ⟨session, hcall⟩) now hnow
    · exact hretained id found hold hw
  · intro id found hl hw
    rcases hroutes id found hl with hsame | hold
    · rw [hsame]
      exact hclear.later hpublished (Nat.le_of_eq hclock.symm)
    · exact (hi.waiting id found hold hw).later hpublished (Nat.le_of_eq hclock.symm)
  · rw [hpublished]
    intro i pair seen hp' hwatch
    rcases hpairs i pair hp' with hnew | hold
    · rw [hnew] at hwatch
      cases hwatch
    · exact hi.checking i pair seen hold hwatch
  · rw [hpublished]
    intro i pair seen notAfter hp' hwatch
    rcases hpairs i pair hp' with hnew | hold
    · rw [hnew] at hwatch
      cases hwatch
    · obtain ⟨hle, hclear⟩ := hi.watching i pair seen notAfter hold hwatch
      exact ⟨hle, fun heq => (hclear heq).later hpublished (Nat.le_of_eq hclock.symm)⟩

theorem Confined.watch {i : ℕ} {pair : Pair} {watch : Watch} (hi : s.Confined)
    (hpair : s.pairs.get i = some pair)
    (hwatch : watch = .checking s.published.length ∨ ∃ seen notAfter,
      watch = .waiting seen notAfter ∧ pair.watch = .checking seen ∧
        s.ensureCredentialActive pair.route.credentialId = some notAfter) :
    (s.setPair i (some { pair with watch := watch })).Confined := by
  constructor
  · exact hi.ordered.congr rfl rfl rfl rfl
  · exact hi.applied
  · exact hi.retained
  · exact hi.waiting
  · intro j found seen hp hseen
    rcases Slots.get_set_cases hp with ⟨-, hfound, -⟩ | ⟨-, hp⟩
    · rw [← Option.some.inj hfound] at hseen
      rcases hwatch with hwatch | ⟨seen', notAfter, hwatch, -⟩
      · have heq : Watch.checking s.published.length = .checking seen := hwatch.symm.trans hseen
        exact Nat.le_of_eq (Watch.checking.inj heq).symm
      · have heq : Watch.waiting seen' notAfter = .checking seen := hwatch.symm.trans hseen
        cases heq
    · exact hi.checking j found seen hp hseen
  · intro j found seen notAfter hp hseen
    rcases Slots.get_set_cases hp with ⟨-, hfound, -⟩ | ⟨-, hp⟩
    · rw [← Option.some.inj hfound] at hseen ⊢
      rcases hwatch with hwatch | ⟨seen', notAfter', hwatch, hchecking, hactive⟩
      · have heq : Watch.checking s.published.length = .waiting seen notAfter :=
          hwatch.symm.trans hseen
        cases heq
      · have heq : Watch.waiting seen' notAfter' = .waiting seen notAfter := hwatch.symm.trans hseen
        obtain ⟨rfl, -⟩ := Watch.waiting.inj heq
        obtain ⟨p, hp', hnow⟩ := ensureCredentialActive_eq_some hactive
        exact ⟨hi.checking i pair seen' hpair hchecking, fun _ => hi.clear hp' hnow⟩
    · exact hi.watching j found seen notAfter hp hseen

theorem Confined.step (hi : s.Confined) (hok : s.timely a) (h : s.Moves config a s') :
    s'.Confined := by
  have hordered := hi.ordered.step (inOrder_of_timely hok) h
  cases h with
  | same => exact hi
  | tick clock instant hclock =>
    exact hi.frame hordered rfl hclock (fun _ _ hcall _ _ => .inl hcall) (fun _ _ hl _ => hl)
      fun _ _ hp => hp
  | accept a session authorization cache hfree hcache =>
    refine hi.frame hordered rfl le_rfl (fun session' call hcall now hnow => ?_)
      (fun _ _ hl _ => hl) fun _ _ hp => hp
    rcases Table.lookup_insert_cases hcall with ⟨-, rfl⟩ | ⟨-, hcall⟩
    · cases hnow
    · exact .inl hcall
  | retain session authorization ticket hcall =>
    refine hi.frame hordered rfl le_rfl (fun session' call hcall' now hnow => ?_)
      (fun id found hl _ => ?_) fun _ _ hp => hp
    · rcases Table.lookup_insert_cases hcall' with ⟨-, rfl⟩ | ⟨-, hcall'⟩
      · obtain rfl : s.clock = now := Option.some.inj hnow
        refine .inr ⟨le_rfl, fun id found hl _ => ?_⟩
        rw [Table.lookup_retain] at hl
        exact (Option.filter_eq_some_iff.mp hl).2
      · exact .inl hcall'
    · rw [Table.lookup_retain] at hl
      exact (Option.filter_eq_some_iff.mp hl).1
  | publish session authorization ticket appliedAt hcall => exact hi.publish hcall hordered
  | register a routeId route hfresh hvacant =>
    refine hi.frame hordered rfl le_rfl (fun _ _ hcall _ _ => .inl hcall) (fun id found hl hw => ?_)
      fun _ _ hp => hp
    rcases Table.lookup_insert_cases hl with ⟨-, rfl⟩ | ⟨-, hl⟩
    · unfold PendingRoute.Waiting at hw
      simp [hvacant.1, hvacant.2] at hw
    · exact hl
  | drop a routes hroutes =>
    exact hi.frame hordered rfl le_rfl (fun _ _ hcall _ _ => .inl hcall)
      (fun id found hl _ => hroutes id found hl) fun _ _ hp => hp
  | admitSocket bytes mac routeId preface route admitted hroute hadmitted =>
    have hcredential : (route.withSocket admitted).credentialId = route.credentialId := by
      unfold PendingRoute.withSocket
      split <;> rfl
    rcases s.admitSocket_cases routeId route admitted with ⟨travel, home, -, -, heq⟩ | heq <;>
      rw [heq] at hordered ⊢
    · refine hi.admitSocket hok hroute hadmitted hordered rfl rfl rfl
        (fun id found hl => .inr (Table.lookup_erase_cases hl).2) fun i pair hp => ?_
      rcases Slots.get_push_cases hp with ⟨-, rfl⟩ | ⟨-, hp⟩
      · exact .inl rfl
      · exact .inr hp
    · refine hi.admitSocket hok hroute hadmitted hordered rfl rfl rfl (fun id found hl => ?_)
        fun i pair hp => .inr hp
      rcases Table.lookup_insert_cases hl with ⟨-, rfl⟩ | ⟨-, hl⟩
      · exact .inl hcredential
      · exact .inr hl
  | watch a i pair watch hpair hwatch => exact hi.watch hpair hwatch
  | close a i =>
    refine hi.frame hordered rfl le_rfl (fun _ _ hcall _ _ => .inl hcall) (fun _ _ hl _ => hl)
      fun j pair hp => ?_
    rcases Slots.get_set_cases hp with ⟨-, hfound, -⟩ | ⟨-, hp⟩
    · cases hfound
    · exact hp

theorem safe_of_timely (config : Config) (cache : AuthorizationCache) (s : Sys)
    (hr : (machine config cache).ReachableWhere timely s) : s.Safe config := by
  have hclaimed : s.Claimed config :=
    hr.reachable.invariant (Claimed.initial cache) fun _ _ _ hi hs => hi.step (step_moves hs)
  have hstart : Confined (machine config cache).start := Confined.initial cache
  have hconfined : s.Confined := hr.invariant hstart
    fun _ _ _ _ hi hok hs => hi.step hok (step_moves hs)
  constructor
  · exact hclaimed.pairs
  · exact hclaimed.claims
  · exact hclaimed.joined
  · exact hconfined.waiting
  · intro i pair hp hidle
    simp only [List.mem_cons, List.not_mem_nil, or_false, forall_eq_or_imp, forall_eq] at hidle
    obtain ⟨hsubscribe, hcheck, hwake⟩ := hidle
    obtain ⟨routeId, route, travel, home, watch⟩ := pair
    cases watch with
    | paired => simp [step, subscribe, hp] at hsubscribe
    | checking seen => simp [step, check, hp] at hcheck
    | waiting seen notAfter =>
      have hseen : seen = s.published.length := by simpa [step, wake, hp] using hwake
      exact (hconfined.watching i _ seen notAfter hp rfl).2 hseen

def sampleRequest : TravelRouteContext := ⟨1, 1, "travel-1", 1, "home-1"⟩

def sampleGrant : ServerGrant := ⟨2, List.replicate 32 8, 1, "home-1", 1030⟩

/-- What a data socket of the sample route sends. -/
def sampleSocket (side : RouteSide) : Bytes :=
  match side with
  | .travel => (RoutePreface.mk .travel 7).signedBytes ++ List.replicate 32 9
  | .home => (RoutePreface.mk .home 2).signedBytes ++ List.replicate 32 8

/-- Two sockets are joined, and closed once their credential is revoked. -/
theorem safe_of_timely_joined :
    ∃ s, (machine sampleConfig {}).execWhere timely
      [.tick 1000 0, .receive 1 knownSnapshot true, .retain 1, .publish 1,
        .register sampleRequest sampleGrant 7 (List.replicate 32 9),
        .claim (sampleSocket .home) 7, .claim (sampleSocket .travel) 7, .subscribe 0, .check 0,
        .receive 1 revokedSnapshot true, .retain 1, .publish 1, .wake 0, .check 0] = some s ∧
    (s.joined, s.claims, decide s.pairs.Idle) = ([7], [(7, .home), (7, .travel)], true) ∧
    s.Safe sampleConfig := by
  have hrun : ((machine sampleConfig {}).execWhere timely
      [.tick 1000 0, .receive 1 knownSnapshot true, .retain 1, .publish 1,
        .register sampleRequest sampleGrant 7 (List.replicate 32 9),
        .claim (sampleSocket .home) 7, .claim (sampleSocket .travel) 7, .subscribe 0, .check 0,
        .receive 1 revokedSnapshot true, .retain 1, .publish 1, .wake 0, .check 0]).map
      (fun s => (s.joined, s.claims, decide s.pairs.Idle)) =
      some ([7], [(7, .home), (7, .travel)], true) := by
    decide +kernel
  obtain ⟨s, hs, heq⟩ := Option.map_eq_some_iff.mp hrun
  exact ⟨s, hs, heq, safe_of_timely sampleConfig {} s (Machine.reachableWhere_of_execWhere hs)⟩

/-- A route is registered and claimed after the routes were cleaned up, and before the revocation
is published. -/
theorem not_safe_of_reachable :
    ¬ ∀ (config : Config) (cache : AuthorizationCache) (s : Sys),
      (machine config cache).Reachable s → s.Safe config := by
  intro hall
  have hrun : ((machine sampleConfig {}).exec
      [.tick 1000 0, .receive 1 knownSnapshot true, .retain 1, .publish 1,
        .receive 1 revokedSnapshot true, .retain 1,
        .register sampleRequest sampleGrant 7 (List.replicate 32 9),
        .claim (sampleSocket .travel) 7, .publish 1]).map
      (fun s => ((s.routes.lookup 7).map fun route => (route.credentialId, decide route.Waiting),
        s.published.map (·.authorization.revokedCredentials))) =
      some (some (1, true), [∅, {1}]) := by
    decide +kernel
  obtain ⟨s, hs, heq⟩ := Option.map_eq_some_iff.mp hrun
  obtain ⟨hroute, hpublished⟩ := Prod.mk.inj heq
  obtain ⟨route, hl, hroute⟩ := Option.map_eq_some_iff.mp hroute
  obtain ⟨hcredential, hwaiting⟩ := Prod.mk.inj hroute
  have hsafe := hall sampleConfig {} s (Machine.reachable_of_exec hs)
  obtain ⟨hclear, -⟩ := hsafe.waiting 7 route hl (of_decide_eq_true hwaiting)
  have hmem : ({1} : Finset Uuid) ∈ s.published.map (·.authorization.revokedCredentials) := by
    rw [hpublished]
    exact List.mem_cons_of_mem _ List.mem_cons_self
  obtain ⟨p, hp, hrevoked⟩ := List.mem_map.mp hmem
  apply hclear p hp
  rw [hcredential, hrevoked]
  exact Finset.mem_singleton_self 1

end Sys
end FlowSplice.Relay
