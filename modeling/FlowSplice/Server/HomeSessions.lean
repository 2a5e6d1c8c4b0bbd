import FlowSplice.Lib.Machine
import FlowSplice.Lib.Listing
import FlowSplice.Server.Registries

/-! `HomeRegistry` over runs: its two maps and its generation stay in step, also where a session of a
Home ends after it was superseded. -/
namespace FlowSplice.Server

open Control (HomeCatalog Catalog)

namespace HomeRegistry
variable {registry : HomeRegistry} {homeId : String} {sessionId : Uuid} {home : HomeCatalog}

inductive Call where
  | register (home : HomeCatalog) (sessionId : Uuid)
  | updateCatalog (home : HomeCatalog) (sessionId : Uuid)
  | remove (homeId : String) (sessionId : Uuid)

/-- The registry after a call, and the catalog if the call says that it changed. -/
def apply (registry : HomeRegistry) : Call → HomeRegistry × Option Catalog
  | .register home sessionId =>
    ((registry.register home sessionId).1, (registry.register home sessionId).2.2)
  | .updateCatalog home sessionId => registry.updateCatalog home sessionId
  | .remove homeId sessionId => registry.remove homeId sessionId

/-- Every sequence of calls. -/
def machine : Machine HomeRegistry Call where
  start := {}
  step registry call := some (registry.apply call).1

/-- `clear_home_session`, with the acknowledgements of authorization snapshots. -/
def clearHomeSession (registry : HomeRegistry) (authorizationAcks : Table String ℕ)
    (homeId : String) (sessionId : Uuid) : HomeRegistry × Table String ℕ :=
  let removed := registry.remove homeId sessionId
  (removed.1, if removed.2.isSome then authorizationAcks.erase ("home:" ++ homeId)
    else authorizationAcks)

/-- A session and a catalog for the same Homes, each catalog under the id of its Home. -/
structure Consistent (registry : HomeRegistry) : Prop where
  keys : ∀ id, (registry.sessions.lookup id).isSome = (registry.catalogs.lookup id).isSome
  keyed : registry.catalogs.KeyedBy (·.homeId)

theorem isSome_insert {α : Type*} (t : Table String α) (a : α) (id id' : String) :
    ((t.insert id a).lookup id').isSome = (decide (id' = id) || (t.lookup id').isSome) := by
  by_cases hid : id' = id
  · subst hid
    simp [AList.lookup_insert]
  · rw [AList.lookup_insert_ne hid]
    simp [hid]

theorem isSome_erase {α : Type*} (t : Table String α) (id id' : String) :
    ((t.erase id).lookup id').isSome = (!decide (id' = id) && (t.lookup id').isSome) := by
  by_cases hid : id' = id
  · subst hid
    simp [AList.lookup_erase]
  · rw [AList.lookup_erase_ne hid]
    simp [hid]

/-- A call either leaves the catalogs, and then the generation, as they are, or tells the catalog
that it made. -/
inductive Effect (registry : HomeRegistry) : HomeRegistry × Option Catalog → Prop
  | same (next : HomeRegistry) (hgeneration : next.generation = registry.generation)
      (hcatalogs : ∀ id, next.catalogs.lookup id = registry.catalogs.lookup id) :
      Effect registry (next, none)
  | changed (next : HomeRegistry) (hgeneration : next.generation = registry.nextGeneration)
      (hcatalogs : ∃ id, next.catalogs.lookup id ≠ registry.catalogs.lookup id) :
      Effect registry (next, some next.catalog)

/-- What one call does: by `updateCatalog` and `remove` of another session nothing. -/
theorem stale (h : registry.sessions.lookup homeId ≠ some sessionId) :
    registry.remove homeId sessionId = (registry, none) ∧
      ∀ home : HomeCatalog, home.homeId = homeId →
        registry.updateCatalog home sessionId = (registry, none) := by
  constructor
  · unfold remove
    rw [if_pos h]
  · intro home hhome
    unfold updateCatalog
    rw [if_pos (.inl (by rwa [hhome]))]

/-- Each call has one of the two effects. -/
theorem effect (registry : HomeRegistry) (call : Call) : registry.Effect (registry.apply call) := by
  cases call with
  | register home sessionId =>
    show registry.Effect ((registry.register home sessionId).1,
      (registry.register home sessionId).2.2)
    by_cases hchanged : registry.catalogs.lookup home.homeId = some home
    · have hnone : (registry.register home sessionId).2.2 = none := if_neg (not_not.mpr hchanged)
      rw [hnone]
      apply Effect.same
      · exact if_neg (not_not.mpr hchanged)
      · intro id
        show (registry.catalogs.insert home.homeId home).lookup id = registry.catalogs.lookup id
        by_cases hid : id = home.homeId
        · rw [hid, AList.lookup_insert, hchanged]
        · exact AList.lookup_insert_ne hid
    · have hsome : (registry.register home sessionId).2.2 =
          some (registry.register home sessionId).1.catalog := if_pos hchanged
      rw [hsome]
      apply Effect.changed
      · exact if_pos hchanged
      · refine ⟨home.homeId, ?_⟩
        show (registry.catalogs.insert home.homeId home).lookup home.homeId ≠
          registry.catalogs.lookup home.homeId
        rw [AList.lookup_insert]
        exact fun heq => hchanged heq.symm
  | updateCatalog home sessionId =>
    show registry.Effect (registry.updateCatalog home sessionId)
    unfold HomeRegistry.updateCatalog
    split_ifs with hsame
    · exact Effect.same registry rfl fun _ => rfl
    · apply Effect.changed
      · rfl
      · refine ⟨home.homeId, ?_⟩
        show (registry.catalogs.insert home.homeId home).lookup home.homeId ≠
          registry.catalogs.lookup home.homeId
        rw [AList.lookup_insert]
        exact fun heq => hsame (.inr heq.symm)
  | remove homeId sessionId =>
    show registry.Effect (registry.remove homeId sessionId)
    unfold HomeRegistry.remove
    split_ifs with hstale hcatalog
    · exact Effect.same registry rfl fun _ => rfl
    · apply Effect.changed
      · rfl
      · refine ⟨homeId, ?_⟩
        show (registry.catalogs.erase homeId).lookup homeId ≠ registry.catalogs.lookup homeId
        intro heq
        rw [← heq, AList.lookup_erase] at hcatalog
        cases hcatalog
    · exact Effect.same _ rfl fun _ => rfl

namespace Consistent

theorem start : Consistent {} :=
  ⟨fun _ => rfl, Table.KeyedBy.empty⟩

theorem register (h : registry.Consistent) (home : HomeCatalog) (sessionId : Uuid) :
    (registry.register home sessionId).1.Consistent := by
  constructor
  · intro id
    have hkeys := h.keys id
    have hsessions := isSome_insert registry.sessions sessionId home.homeId id
    have hcatalogs := isSome_insert registry.catalogs home home.homeId id
    rw [hkeys] at hsessions
    exact hsessions.trans hcatalogs.symm
  · exact h.keyed.insert home

theorem updateCatalog (h : registry.Consistent) (home : HomeCatalog) (sessionId : Uuid) :
    (registry.updateCatalog home sessionId).1.Consistent := by
  unfold HomeRegistry.updateCatalog
  split_ifs with hsame
  · exact h
  · constructor
    · intro id
      have hsession : registry.sessions.lookup home.homeId = some sessionId := by
        by_contra hne
        exact hsame (.inl hne)
      have hcatalogs := isSome_insert registry.catalogs home home.homeId id
      refine Eq.trans ?_ hcatalogs.symm
      by_cases hid : id = home.homeId
      · subst hid
        simp [hsession]
      · simp [hid, h.keys id]
    · exact h.keyed.insert home

theorem remove (h : registry.Consistent) (homeId : String) (sessionId : Uuid) :
    (registry.remove homeId sessionId).1.Consistent := by
  unfold HomeRegistry.remove
  split_ifs with hstale hcatalog
  · exact h
  · constructor
    · intro id
      have hsessions := isSome_erase registry.sessions homeId id
      have hcatalogs := isSome_erase registry.catalogs homeId id
      rw [h.keys id] at hsessions
      exact hsessions.trans hcatalogs.symm
    · exact h.keyed.erase homeId
  · have hsession : registry.sessions.lookup homeId = some sessionId := by
      by_contra hne
      exact hstale hne
    have hkeys := h.keys homeId
    rw [hsession] at hkeys
    exact absurd hkeys.symm hcatalog

theorem apply (h : registry.Consistent) (call : Call) : (registry.apply call).1.Consistent := by
  cases call with
  | register home sessionId => exact h.register home sessionId
  | updateCatalog home sessionId => exact h.updateCatalog home sessionId
  | remove homeId sessionId => exact h.remove homeId sessionId

theorem reachable (h : machine.Reachable registry) : registry.Consistent := by
  apply Machine.Reachable.invariant h Consistent.start
  intro t call t' ht hstep
  rw [← Option.some.inj hstep]
  exact ht.apply call

end Consistent

/-- `saturating_add` has come to its end. -/
def Saturated (registry : HomeRegistry) : Prop := 2 ^ 64 - 1 ≤ registry.generation

/-- What the listed Homes and the generation do in one call. -/
structure InStep (registry next : HomeRegistry) (told : Option Catalog) : Prop where
  generation : next.generation =
    if next.catalog.homes = registry.catalog.homes then registry.generation
    else registry.nextGeneration
  told : told = if next.catalog.homes = registry.catalog.homes then none else some next.catalog

/-- An effect on catalogs that are under their ids. -/
theorem Effect.inStep {result : HomeRegistry × Option Catalog} (heffect : registry.Effect result)
    (h : registry.Consistent) (hresult : result.1.Consistent) :
    registry.InStep result.1 result.2 := by
  have hiff := hresult.keyed.listing_eq_iff h.keyed stringBytes_injective
  cases heffect with
  | same next hgeneration hcatalogs =>
    have hhomes : next.catalog.homes = registry.catalog.homes := hiff.mpr hcatalogs
    constructor
    · rw [if_pos hhomes]
      exact hgeneration
    · rw [if_pos hhomes]
  | changed next hgeneration hcatalogs =>
    have hhomes : next.catalog.homes ≠ registry.catalog.homes := by
      intro heq
      obtain ⟨id, hid⟩ := hcatalogs
      exact hid (hiff.mp heq id)
    constructor
    · rw [if_neg hhomes]
      exact hgeneration
    · rw [if_neg hhomes]

theorem Consistent.inStep (h : registry.Consistent) (call : Call) :
    registry.InStep (registry.apply call).1 (registry.apply call).2 :=
  (effect registry call).inStep h (h.apply call)

theorem InStep.rises {next : HomeRegistry} {told : Option Catalog} (h : registry.InStep next told)
    (hnext : ¬ next.Saturated) : ¬ registry.Saturated ∧
      (next.catalog.homes = registry.catalog.homes ∧ next.generation = registry.generation ∨
        next.catalog.homes ≠ registry.catalog.homes ∧
          next.generation = registry.generation + 1) := by
  have hgeneration := h.generation
  unfold Saturated nextGeneration at *
  by_cases hhomes : next.catalog.homes = registry.catalog.homes
  · rw [if_pos hhomes] at hgeneration
    exact ⟨by omega, .inl ⟨hhomes, hgeneration⟩⟩
  · rw [if_neg hhomes] at hgeneration
    exact ⟨by omega, .inr ⟨hhomes, by omega⟩⟩

/-- A registry that comes after another in a run. -/
def Later (registry later : HomeRegistry) : Prop :=
  Relation.ReflTransGen (fun r r' => ∃ call, (r.apply call).1 = r') registry later

/-- Later in a run the generation is not lower, and is the same only with the same Homes, as long as
it has not saturated. -/
theorem Consistent.later {later : HomeRegistry} (h : registry.Consistent)
    (hrun : registry.Later later) (hlater : ¬ later.Saturated) :
    registry.generation ≤ later.generation ∧
      (later.generation = registry.generation →
        later.catalog.homes = registry.catalog.homes) := by
  have hall : later.Consistent ∧ (¬ later.Saturated → registry.generation ≤ later.generation ∧
      (later.generation = registry.generation →
        later.catalog.homes = registry.catalog.homes)) := by
    clear hlater
    induction hrun with
    | refl => exact ⟨h, fun _ => ⟨Nat.le_refl _, fun _ => rfl⟩⟩
    | @tail middle _ _ hstep ih =>
      obtain ⟨call, rfl⟩ := hstep
      obtain ⟨hmiddle, hih⟩ := ih
      refine ⟨hmiddle.apply call, ?_⟩
      intro hnext
      obtain ⟨hunsaturated, hsame | hchanged⟩ := (hmiddle.inStep call).rises hnext
      · rw [hsame.1, hsame.2]
        exact hih hunsaturated
      · have hle := (hih hunsaturated).1
        have hgeneration := hchanged.2
        exact ⟨by omega, fun heq => by omega⟩
  exact hall.2 hlater

/-- In every state of every run the two maps have the same Homes, and the catalog lists each of them
once, by its id. A call of a session that is not the Home's does nothing. The generation rises
exactly when the listed Homes change, and this is told; until it saturates, it tells the catalogs of a
run apart. -/
theorem consistent_of_reachable (h : machine.Reachable registry) :
    (∀ id, (registry.sessions.lookup id).isSome = (registry.catalogs.lookup id).isSome) ∧
    (registry.catalog.homes.map fun home => stringBytes home.homeId).Pairwise (· < ·) ∧
    (∀ home, home ∈ registry.catalog.homes ↔
      registry.catalogs.lookup home.homeId = some home) ∧
    (∀ homeId sessionId, registry.sessions.lookup homeId ≠ some sessionId →
      registry.remove homeId sessionId = (registry, none) ∧
      (∀ acks, registry.clearHomeSession acks homeId sessionId = (registry, acks)) ∧
      ∀ home : HomeCatalog, home.homeId = homeId →
        registry.updateCatalog home sessionId = (registry, none)) ∧
    (∀ call, registry.InStep (registry.apply call).1 (registry.apply call).2 ∧
      (¬ registry.Saturated →
        (registry.generation < (registry.apply call).1.generation ↔
          (registry.apply call).1.catalog.homes ≠ registry.catalog.homes) ∧
        ((registry.apply call).1.generation = registry.generation ↔
          (registry.apply call).1.catalog.homes = registry.catalog.homes))) ∧
    ∀ later, registry.Later later → ¬ later.Saturated →
      registry.generation ≤ later.generation ∧
      (later.generation = registry.generation →
        later.catalog.homes = registry.catalog.homes) := by
  have hconsistent := Consistent.reachable h
  refine ⟨hconsistent.keys, hconsistent.keyed.pairwise_listing stringBytes_injective,
    fun home => hconsistent.keyed.mem_listing, ?_, ?_, fun later => hconsistent.later⟩
  · intro homeId sessionId hother
    obtain ⟨hremove, hupdate⟩ := stale hother
    refine ⟨hremove, ?_, hupdate⟩
    intro acks
    unfold clearHomeSession
    rw [hremove]
    rfl
  · intro call
    have hstep := hconsistent.inStep call
    refine ⟨hstep, ?_⟩
    intro hunsaturated
    have hgeneration := hstep.generation
    unfold Saturated at hunsaturated
    unfold nextGeneration at hgeneration
    by_cases hhomes : (registry.apply call).1.catalog.homes = registry.catalog.homes
    · rw [if_pos hhomes] at hgeneration
      simp [hhomes, hgeneration]
    · rw [if_neg hhomes] at hgeneration
      have hrises : (registry.apply call).1.generation = registry.generation + 1 := by omega
      simp [hhomes, hrises]

/-- Two Homes connect, the first connects again, and its first session then ends. -/
def superseded : List Call :=
  [.register { homeId := "home-2", homeAlias := "second" } 1,
    .register { homeId := "home-1", homeAlias := "first" } 2,
    .register { homeId := "home-2", homeAlias := "second" } 3,
    .remove "home-2" 1]

/-- The session that was superseded leaves the catalog of its successor alone. -/
theorem consistent_of_superseded :
    ∃ registry, machine.exec superseded = some registry ∧ registry.generation = 2 ∧
      registry.catalog.homes.map (·.homeId) = ["home-1", "home-2"] ∧
      (registry.catalog.homes.map fun home => stringBytes home.homeId).Pairwise (· < ·) ∧
      registry.remove "home-2" 1 = (registry, none) := by
  have hrun : (machine.exec superseded).map (fun registry => (registry.generation,
      registry.catalog.homes.map (·.homeId), registry.sessions.lookup "home-2")) =
        some (2, ["home-1", "home-2"], some 3) := by
    decide
  obtain ⟨registry, hexec, hstate⟩ := Option.map_eq_some_iff.mp hrun
  obtain ⟨hgeneration, hstate⟩ := Prod.mk.inj hstate
  obtain ⟨hhomes, hsession⟩ := Prod.mk.inj hstate
  have hother : registry.sessions.lookup "home-2" ≠ some 1 := by
    rw [hsession]
    decide
  obtain ⟨-, hsorted, -, hstale, -⟩ := consistent_of_reachable (Machine.reachable_of_exec hexec)
  exact ⟨registry, hexec, hgeneration, hhomes, hsorted, (hstale "home-2" 1 hother).1⟩

end HomeRegistry
end FlowSplice.Server
