import FlowSplice.Lib.Publication
import FlowSplice.Relay.System

/-! What a Relay publishes of the authorization that its cache accepts. -/
namespace FlowSplice

/-- What a follower remembers of an authorization. -/
def VerifiedAuthorization.cached (authorization : VerifiedAuthorization) : AuthorizationCache :=
  ⟨authorization.generation, authorization.snapshotSha256, authorization.revokedCredentials⟩

/-- A later authorization is not of an older generation, and revokes no less. -/
def VerifiedAuthorization.Precedes (older newer : VerifiedAuthorization) : Prop :=
  older.generation ≤ newer.generation ∧ older.revokedCredentials ⊆ newer.revokedCredentials

theorem AuthorizationCache.accept_eq_some {cache proposed : AuthorizationCache}
    {authorization : VerifiedAuthorization} (h : cache.accept authorization = some proposed) :
    proposed = authorization.cached ∧ cache.generation ≤ authorization.generation ∧
      cache.revokedCredentials ⊆ authorization.revokedCredentials := by
  unfold accept at h
  split_ifs at h with hgeneration hdigest hrevoked
  exact ⟨(Option.some.inj h).symm, Nat.le_of_not_lt hgeneration, hrevoked⟩

theorem VerifiedAuthorization.isActive_of_revoked {authorization : VerifiedAuthorization}
    {credentialId : Uuid} (h : credentialId ∈ authorization.revokedCredentials) (now : ℕ) :
    authorization.isActive credentialId now = false := by
  unfold isActive
  cases authorization.credential credentialId with
  | none => rfl
  | some credential => simp [h]

namespace Relay
namespace Sys
variable {config : Config} {s s' : Sys} {a : Action}

/-- The calls draw their authorization from the cache, and publish it later. -/
def publications (s : Sys) : Publication.State Uuid VerifiedAuthorization where
  drawn := s.accepted
  pending session := (s.calls.lookup session).map (·.ticket)
  published := s.published.map (·.ticket)

/-- A call publishes before any call whose snapshot the cache accepted later. -/
def inOrder (s : Sys) : Action → Prop
  | .publish session => ∀ call ∈ s.calls.lookup session, ∀ p ∈ s.published, p.ticket < call.ticket
  | _ => True

instance (s : Sys) (action : Action) : Decidable (s.inOrder action) :=
  match action with
  | .publish _ => inferInstanceAs (Decidable (∀ _ ∈ _, _))
  | .tick _ _ | .receive _ _ _ | .retain _ | .register _ _ _ _ | .unregister _ | .claim _ _
  | .cleanup | .subscribe _ | .check _ | .wake _ | .expire _ | .finish _ =>
    inferInstanceAs (Decidable True)

/-- The authorization that is published only advances, and with no call in progress it is what the
cache has recorded. -/
structure NeverRollsBack (s : Sys) : Prop where
  generations : s.published.Pairwise fun older newer =>
    older.authorization.generation ≤ newer.authorization.generation
  revoked : s.published.Pairwise fun older newer =>
    ∀ credentialId ∈ older.authorization.revokedCredentials, ∀ now,
      newer.authorization.isActive credentialId now = false
  settled : (∀ session, s.calls.lookup session = none) → s.accepted ≠ [] →
    ∃ p, s.published.getLast? = some p ∧ s.cache = p.authorization.cached

structure Ordered (s : Sys) : Prop where
  tickets : Publication.Inv s.publications
  calls : ∀ session call, s.calls.lookup session = some call →
    s.accepted[call.ticket]? = some call.authorization
  published : ∀ p ∈ s.published, s.accepted[p.ticket]? = some p.authorization
  rising : s.accepted.Pairwise VerifiedAuthorization.Precedes
  bounded : ∀ authorization ∈ s.accepted, authorization.generation ≤ s.cache.generation ∧
    authorization.revokedCredentials ⊆ s.cache.revokedCredentials
  cache : ∀ authorization, s.accepted.getLast? = some authorization →
    s.cache = authorization.cached

theorem Ordered.initial (cache : AuthorizationCache) : Ordered (machine config cache).start := by
  constructor
  · exact Publication.Inv.initial
  all_goals simp [machine]

/-- What does not touch the calls and what they publish keeps the order. -/
theorem Ordered.congr (hi : s.Ordered) (hcache : s'.cache = s.cache) (hcalls : s'.calls = s.calls)
    (hpublished : s'.published = s.published) (haccepted : s'.accepted = s.accepted) :
    s'.Ordered := by
  have hpublications : s'.publications = s.publications := by
    simp only [publications, hcalls, hpublished, haccepted]
  constructor
  · rw [hpublications]
    exact hi.tickets
  · rw [hcalls, haccepted]
    exact hi.calls
  · rw [hpublished, haccepted]
    exact hi.published
  · rw [haccepted]
    exact hi.rising
  · rw [haccepted, hcache]
    exact hi.bounded
  · rw [haccepted, hcache]
    exact hi.cache

theorem Ordered.accept {session : Uuid} {authorization : VerifiedAuthorization}
    {cache : AuthorizationCache} (hi : s.Ordered) (hfree : s.calls.lookup session = none)
    (hcache : s.cache.accept authorization = some cache) :
    Ordered { s with
      cache := cache
      calls := s.calls.insert session ⟨authorization, s.accepted.length, none⟩
      accepted := s.accepted ++ [authorization] } := by
  obtain ⟨rfl, hgeneration, hrevoked⟩ := AuthorizationCache.accept_eq_some hcache
  constructor
  · have hdraw := hi.tickets.draw (k := session) (by simp [publications, hfree]) authorization
    refine cast (congrArg _ ?_) hdraw
    simp only [publications, Publication.State.draw, Publication.State.mk.injEq, true_and, and_true]
    funext session'
    by_cases hs : session' = session
    · subst hs
      simp
    · simp [Function.update_of_ne hs, AList.lookup_insert_ne hs]
  · intro session' call hcall
    rcases Table.lookup_insert_cases hcall with ⟨-, rfl⟩ | ⟨-, hcall⟩
    · simp
    · exact Log.getElem?_append_of_some (hi.calls session' call hcall)
  · intro p hp
    exact Log.getElem?_append_of_some (hi.published p hp)
  · refine Log.pairwise_append hi.rising ?_
    intro older holder
    obtain ⟨hg, hr⟩ := hi.bounded older holder
    exact ⟨hg.trans hgeneration, hr.trans hrevoked⟩
  · refine Log.forall_append ?_ ⟨le_rfl, Finset.Subset.refl _⟩
    intro older holder
    obtain ⟨hg, hr⟩ := hi.bounded older holder
    exact ⟨hg.trans hgeneration, hr.trans hrevoked⟩
  · intro last hlast
    rw [Log.getLast?_append] at hlast
    rw [Option.some.inj hlast]

theorem Ordered.retain {session : Uuid} {authorization : VerifiedAuthorization} {ticket : ℕ}
    {routes : Table Uuid PendingRoute} {retained : Option ℕ} (hi : s.Ordered)
    (hcall : s.calls.lookup session = some ⟨authorization, ticket, none⟩) :
    Ordered { s with
      routes := routes
      calls := s.calls.insert session ⟨authorization, ticket, retained⟩ } := by
  constructor
  · refine cast (congrArg _ ?_) hi.tickets
    simp only [publications, Publication.State.mk.injEq, true_and, and_true]
    funext session'
    by_cases hs : session' = session
    · subst hs
      simp [hcall]
    · simp [AList.lookup_insert_ne hs]
  · intro session' call hcall'
    rcases Table.lookup_insert_cases hcall' with ⟨-, rfl⟩ | ⟨-, hcall'⟩
    · exact hi.calls session ⟨authorization, ticket, none⟩ hcall
    · exact hi.calls session' call hcall'
  · exact hi.published
  · exact hi.rising
  · exact hi.bounded
  · exact hi.cache

theorem Ordered.publish {session : Uuid} {authorization : VerifiedAuthorization}
    {ticket appliedAt : ℕ} (hi : s.Ordered) (hok : s.inOrder (.publish session))
    (hcall : s.calls.lookup session = some ⟨authorization, ticket, some appliedAt⟩) :
    Ordered { s with
      published := s.published ++ [⟨authorization, ticket, appliedAt⟩]
      calls := s.calls.erase session } := by
  constructor
  · have hpublish := hi.tickets.publish (k := session) (i := ticket)
      (by simp [publications, hcall]) ?_
    · refine cast (congrArg _ ?_) hpublish
      simp only [publications, Publication.State.publish, Publication.State.mk.injEq, true_and,
        List.map_append, List.map_cons, List.map_nil, and_true]
      funext session'
      by_cases hs : session' = session
      · subst hs
        simp
      · simp [Function.update_of_ne hs, AList.lookup_erase_ne hs]
    · intro j hj
      obtain ⟨p, hp, rfl⟩ := List.mem_map.mp hj
      exact hok _ hcall p hp
  · intro session' call hcall'
    exact hi.calls session' call (Table.lookup_erase_cases hcall').2
  · exact Log.forall_append hi.published (hi.calls session _ hcall)
  · exact hi.rising
  · exact hi.bounded
  · exact hi.cache

theorem Ordered.step (hi : s.Ordered) (hok : s.inOrder a) (h : s.Moves config a s') :
    s'.Ordered := by
  cases h with
  | same => exact hi
  | accept a session authorization cache hfree hcache => exact hi.accept hfree hcache
  | retain session authorization ticket hcall => exact hi.retain hcall
  | publish session authorization ticket appliedAt hcall => exact hi.publish hok hcall
  | admitSocket bytes mac routeId preface route admitted hroute hadmitted =>
    unfold admitSocket
    dsimp only
    split <;> exact hi.congr rfl rfl rfl rfl
  | tick | register | drop | watch | close => exact hi.congr rfl rfl rfl rfl

/-- What was published stands in the order in which the cache accepted it. -/
theorem Ordered.precedes (hi : s.Ordered) : s.published.Pairwise fun older newer =>
    older.authorization.Precedes newer.authorization := by
  have hrising := hi.tickets.rising hi.rising
  refine (List.pairwise_map.mp hrising).imp_of_mem fun holder hnewer hR => ?_
  exact hR _ _ (hi.published _ holder) (hi.published _ hnewer)

theorem ordered_of_weaker {cache : AuthorizationCache} (P : Sys → Action → Prop)
    (hP : ∀ s a, P s a → s.inOrder a) (hr : (machine config cache).ReachableWhere P s) :
    s.Ordered :=
  hr.invariant (Ordered.initial cache) fun t a _ _ hi hok hs => hi.step (hP t a hok) (step_moves hs)

theorem Ordered.neverRollsBack (hi : s.Ordered) : s.NeverRollsBack := by
  constructor
  · exact hi.precedes.imp fun h => h.1
  · refine hi.precedes.imp fun h credentialId hrevoked now => ?_
    exact VerifiedAuthorization.isActive_of_revoked (h.2 hrevoked) now
  · intro hidle hne
    have hlast := hi.tickets.settled (fun session => by simp [publications, hidle]) hne
    simp only [publications, List.getLast?_map] at hlast
    obtain ⟨p, hp, hticket⟩ := Option.map_eq_some_iff.mp hlast
    refine ⟨p, hp, hi.cache _ ?_⟩
    rw [List.getLast?_eq_getElem?, ← hticket]
    exact hi.published p (List.mem_of_getLast? hp)

/-- With publications in the order of acceptance, the published authorization never rolls back. -/
theorem never_rolls_back_of_inOrder (config : Config) (cache : AuthorizationCache) (s : Sys)
    (hr : (machine config cache).ReachableWhere inOrder s) : s.NeverRollsBack :=
  (ordered_of_weaker inOrder (fun _ _ h => h) hr).neverRollsBack

/-- A Relay of the sample deployment whose data sockets send the tag that is their secret. -/
def sampleConfig : Config where
  deployment := sampleServer
  hmacVerifies key _ tag := key == tag
  routeTtlSecs := 60

/-- The snapshot of the sample credential, and the one that revokes it. -/
def knownSnapshot : TravelAuthorizationSnapshot where
  generation := 5
  credentials := [sampleSignedCredential]

def revokedSnapshot : TravelAuthorizationSnapshot where
  generation := 6
  credentials := [sampleSignedCredential]
  revocations := [⟨1, 1000, "lost"⟩]

/-- A session and its successor apply one snapshot each, one after the other. -/
theorem never_rolls_back_of_inOrder_succession :
    ∃ s, (machine sampleConfig {}).execWhere inOrder
      [.tick 1000 0, .receive 1 knownSnapshot true, .retain 1, .receive 2 revokedSnapshot true,
        .publish 1, .retain 2, .publish 2] = some s ∧
    s.published.map (fun p => (p.authorization.generation, p.authorization.revokedCredentials)) =
      [(5, ∅), (6, {1})] ∧ s.NeverRollsBack := by
  have hrun : ((machine sampleConfig {}).execWhere inOrder
      [.tick 1000 0, .receive 1 knownSnapshot true, .retain 1, .receive 2 revokedSnapshot true,
        .publish 1, .retain 2, .publish 2]).map (fun s => s.published.map fun p =>
          (p.authorization.generation, p.authorization.revokedCredentials)) =
      some [(5, ∅), (6, {1})] := by
    decide +kernel
  obtain ⟨s, hs, heq⟩ := Option.map_eq_some_iff.mp hrun
  exact ⟨s, hs, heq, never_rolls_back_of_inOrder sampleConfig {} s
    (Machine.reachableWhere_of_execWhere hs)⟩

/-- The successor publishes the revocation before the superseded session publishes at all. -/
theorem not_never_rolls_back_of_reachable :
    ¬ ∀ (config : Config) (cache : AuthorizationCache) (s : Sys),
      (machine config cache).Reachable s → s.NeverRollsBack := by
  intro hall
  have hrun : ((machine sampleConfig {}).exec
      [.tick 1000 0, .receive 1 knownSnapshot true, .receive 2 revokedSnapshot true, .retain 2,
        .publish 2, .retain 1, .publish 1]).map (fun s => s.published.map fun p =>
          (p.authorization.generation, p.authorization.revokedCredentials)) =
      some [(6, {1}), (5, ∅)] := by
    decide +kernel
  obtain ⟨s, hs, heq⟩ := Option.map_eq_some_iff.mp hrun
  have hgenerations := (hall sampleConfig {} s (Machine.reachable_of_exec hs)).generations
  have hpairs := List.pairwise_map (f := fun p : Published =>
    (p.authorization.generation, p.authorization.revokedCredentials))
    (R := fun older newer => older.1 ≤ newer.1) |>.mpr hgenerations
  rw [heq] at hpairs
  have hle := List.rel_of_pairwise_cons hpairs List.mem_cons_self
  omega

end Sys
end Relay
end FlowSplice
