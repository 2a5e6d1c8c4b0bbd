import FlowSplice.Server.Directory

/-! Which session of a Relay an entry of the directory belongs to. -/
namespace FlowSplice.Server

open Control (RelayEndpoint RelayDirectory)

theorem RelayDirectoryRegistry.mem_directory {registry : RelayDirectoryRegistry}
    {endpoint : RelayEndpoint} : endpoint ∈ registry.directory.relays ↔
      ∃ relay entry, registry.sessions.lookup relay = some entry ∧
        entry.endpoint = some endpoint := by
  unfold directory
  rw [List.mem_insertionSort, List.mem_filterMap]
  constructor
  · rintro ⟨entry, hentry, he⟩
    obtain ⟨relay, hl⟩ := Table.mem_values.mp hentry
    exact ⟨relay, entry, hl, he⟩
  · rintro ⟨relay, entry, hl, he⟩
    exact ⟨entry, Table.mem_values.mpr ⟨relay, hl⟩, he⟩

theorem RelayDirectoryRegistry.isCurrent_iff {registry : RelayDirectoryRegistry} {relay : String}
    {id : Uuid} : registry.isCurrent relay id = true ↔
      ∃ endpoint, registry.sessions.lookup relay = some ⟨id, endpoint⟩ := by
  unfold isCurrent
  rw [Option.any_eq_true]
  constructor
  · rintro ⟨⟨sessionId, endpoint⟩, hl, hid⟩
    obtain rfl : sessionId = id := by simpa using hid
    exact ⟨endpoint, hl⟩
  · rintro ⟨endpoint, hl⟩
    exact ⟨_, hl, by simp⟩

namespace Sys
variable {connectable : String → Bool} {s s' : Sys} {a : Action} {id : Uuid} {relay : String}
  {session session' : RelaySession}

/-- No session of a Relay is between its registration and its first entry, or in its teardown. -/
def Settled (s : Sys) (relay : String) : Prop :=
  ∀ id session, s.sessions.lookup id = some session → session.relay = relay →
    session.stage = .opening ∨ session.stage = .running ∨ session.stage = .ended

/-- The entry of a Relay is the endpoint of its session, none outlasts the sessions of its Relay, and
only sessions that were superseded are refused. -/
structure Belongs (s : Sys) : Prop where
  entries : ∀ relay, s.Settled relay → ∀ endpoint,
    endpoint ∈ s.registry.directory.relays ∧ endpoint.id = relay ↔
      ∃ id session, s.relaySessions.lookup relay = some id ∧
        s.sessions.lookup id = some session ∧ session.endpoint = some endpoint
  ended : ∀ relay, (∀ id session, s.sessions.lookup id = some session → session.relay = relay →
    session.stage = .ended) → s.registry.sessions.lookup relay = none
  refused : ∀ refusal ∈ s.refused, refusal.2 = false

/-- A session enters the directory only while it is in `relay_sessions`. When the last session of a
Relay leaves, an entry that is there is its own, and it takes it away. -/
def orderly (s : Sys) : Action → Prop
  | .replace id _ => ∀ session ∈ s.sessions.lookup id,
      s.relaySessions.lookup session.relay = some id
  | .unregister id stored => ∀ session ∈ s.sessions.lookup id,
      (s.relaySessions.lookup session.relay).isNone →
        ∀ entry ∈ s.registry.sessions.lookup session.relay,
          entry.sessionId = id ∧ (allocateGeneration s.nextGeneration stored).isSome
  | _ => True

instance (s : Sys) (action : Action) : Decidable (s.orderly action) :=
  match action with
  | .replace _ _ | .unregister _ _ => inferInstanceAs (Decidable (∀ _ ∈ _, _))
  | .connect _ _ _ | .publish _ | .open _ | .notify _ | .update _ _ _ | .fail _ | .leave _
  | .deliver _ | .sign _ => inferInstanceAs (Decidable True)

/-- The session has yet to take over the entry of its Relay. -/
def Replacing (s : Sys) (relay : String) : Prop :=
  ∃ id session, s.relaySessions.lookup relay = some id ∧ s.sessions.lookup id = some session ∧
    session.replaced = false

/-- The last session of the Relay is about to take its entry away. -/
def Unregistering (s : Sys) (relay : String) : Prop :=
  s.relaySessions.lookup relay = none ∧ ∃ id session, s.sessions.lookup id = some session ∧
    session.relay = relay ∧ session.stage = .unregistering

/-- A session in `relay_sessions` has the entry once it has entered the directory; an entry of
another session will be replaced or removed. -/
structure Owned (s : Sys) : Prop where
  named : ∀ relay entry, s.registry.sessions.lookup relay = some entry →
    ∀ endpoint ∈ entry.endpoint, endpoint.id = relay
  endpoint : ∀ id session, s.sessions.lookup id = some session →
    ∀ endpoint ∈ session.endpoint, endpoint.id = session.relay
  live : ∀ relay id, s.relaySessions.lookup relay = some id → ∃ session,
    s.sessions.lookup id = some session ∧ session.relay = relay ∧
      session.stage ≠ .unregistering ∧ session.stage ≠ .ended
  replaced : ∀ id session, s.sessions.lookup id = some session →
    session.stage = .opening ∨ session.stage = .running → session.replaced = true
  owner : ∀ relay entry, s.registry.sessions.lookup relay = some entry → ∃ session,
    s.sessions.lookup entry.sessionId = some session ∧ session.relay = relay
  own : ∀ relay id session, s.relaySessions.lookup relay = some id →
    s.sessions.lookup id = some session → session.replaced = true →
      s.registry.sessions.lookup relay = some ⟨id, session.endpoint⟩
  foreign : ∀ relay entry, s.registry.sessions.lookup relay = some entry →
    s.relaySessions.lookup relay ≠ some entry.sessionId → s.Replacing relay ∨ s.Unregistering relay
  refused : ∀ refusal ∈ s.refused, refusal.2 = false

theorem Owned.initial (generation : ℕ) : Owned (machine connectable generation).start := by
  constructor <;> simp [machine]

/-- The session in `relay_sessions` of a Relay is one of that Relay. -/
theorem Owned.relay_eq (hi : s.Owned) (hcurrent : s.relaySessions.lookup relay = some id)
    (hsession : s.sessions.lookup id = some session) : session.relay = relay := by
  obtain ⟨found, hfound, hrelay, -⟩ := hi.live relay id hcurrent
  rw [hsession] at hfound
  rw [Option.some.inj hfound]
  exact hrelay

theorem Owned.belongs (hi : s.Owned) : s.Belongs := by
  have hnone : ∀ relay, s.Settled relay → s.relaySessions.lookup relay = none →
      s.registry.sessions.lookup relay = none := fun relay hsettled hgone => by
    cases hl : s.registry.sessions.lookup relay with
    | none => rfl
    | some entry =>
      rcases hi.foreign relay entry hl (by simp [hgone]) with ⟨id, session, hcurrent, -⟩ |
        ⟨-, id, session, hsession, hrelay, hstage⟩
      · rw [hgone] at hcurrent
        cases hcurrent
      · rcases hsettled id session hsession hrelay with h | h | h <;> rw [hstage] at h <;> cases h
  constructor
  · intro relay hsettled endpoint
    rw [RelayDirectoryRegistry.mem_directory]
    cases hcurrent : s.relaySessions.lookup relay with
    | none =>
      have hempty := hnone relay hsettled hcurrent
      constructor
      · rintro ⟨⟨relay', entry, hl, he⟩, hid⟩
        have hname := hi.named relay' entry hl endpoint he
        rw [← hname, hid, hempty] at hl
        cases hl
      · rintro ⟨id, session, hc, -⟩
        cases hc
    | some id =>
      obtain ⟨session, hsession, hrelay, hunregistering, hended⟩ := hi.live relay id hcurrent
      have hreplaced : session.replaced = true := by
        rcases hsettled id session hsession hrelay with h | h | h
        · exact hi.replaced id session hsession (.inl h)
        · exact hi.replaced id session hsession (.inr h)
        · exact absurd h hended
      have hown := hi.own relay id session hcurrent hsession hreplaced
      constructor
      · rintro ⟨⟨relay', entry, hl, he⟩, hid⟩
        have hname := hi.named relay' entry hl endpoint he
        rw [← hname, hid, hown] at hl
        rw [← Option.some.inj hl] at he
        exact ⟨id, session, rfl, hsession, he⟩
      · rintro ⟨id', session', hc, hs', he⟩
        obtain rfl := Option.some.inj hc
        obtain rfl := Option.some.inj (hsession.symm.trans hs')
        exact ⟨⟨relay, _, hown, he⟩, hrelay ▸ hi.endpoint id session hsession endpoint he⟩
  · intro relay hended
    refine hnone relay (fun id session hs hr => .inr (.inr (hended id session hs hr))) ?_
    cases hcurrent : s.relaySessions.lookup relay with
    | none => rfl
    | some id =>
      obtain ⟨session, hsession, hrelay, -, hstage⟩ := hi.live relay id hcurrent
      exact absurd (hended id session hsession hrelay) hstage
  · exact hi.refused

/-- A session in `relay_sessions` has not begun to unregister. -/
theorem Owned.stage (hi : s.Owned) (hsession : s.sessions.lookup id = some session)
    (hcurrent : s.relaySessions.lookup session.relay = some id) :
    session.stage ≠ .unregistering ∧ session.stage ≠ .ended := by
  obtain ⟨found, hfound, -, hstages⟩ := hi.live session.relay id hcurrent
  obtain rfl := Option.some.inj (hsession.symm.trans hfound)
  exact hstages

/-- One session changes its stage, neither leaving `relay_sessions` nor the directory. -/
theorem Owned.frame (hi : s.Owned) (hsession : s.sessions.lookup id = some session)
    (hs' : s'.sessions = s.sessions.insert id session') (hregistry : s'.registry = s.registry)
    (hrelaySessions : s'.relaySessions = s.relaySessions)
    (hrefused : ∀ refusal ∈ s'.refused, refusal.2 = false)
    (hrelay : session'.relay = session.relay) (hendpoint : session'.endpoint = session.endpoint)
    (hreplaced : session'.replaced = session.replaced)
    (hstage : session'.stage = .opening ∨ session'.stage = .running → session.replaced = true)
    (hlive : s.relaySessions.lookup session.relay = some id →
      session'.stage ≠ .unregistering ∧ session'.stage ≠ .ended)
    (hgone : session.stage = .unregistering → session'.stage = .unregistering ∨
      ∀ entry, s.registry.sessions.lookup session.relay = some entry →
        s.relaySessions.lookup session.relay ≠ none) : s'.Owned := by
  constructor
  · rw [hregistry]
    exact hi.named
  · rw [hs']
    intro id' found hl
    rcases Table.lookup_insert_cases hl with ⟨-, rfl⟩ | ⟨-, hl⟩
    · rw [hrelay, hendpoint]
      exact hi.endpoint id session hsession
    · exact hi.endpoint id' found hl
  · rw [hs', hrelaySessions]
    intro relay id' hcurrent
    obtain ⟨found, hfound, hr, hstages⟩ := hi.live relay id' hcurrent
    obtain ⟨found', hl, ⟨rfl, rfl⟩ | ⟨-, rfl⟩⟩ :=
      Table.exists_lookup_insert (k := id) (a := session') hfound
    · obtain rfl := Option.some.inj (hsession.symm.trans hfound)
      exact ⟨found', hl, hrelay.trans hr, hlive (hr ▸ hcurrent)⟩
    · exact ⟨found', hl, hr, hstages⟩
  · rw [hs']
    intro id' found hl hst
    rcases Table.lookup_insert_cases hl with ⟨-, rfl⟩ | ⟨-, hl⟩
    · rw [hreplaced]
      exact hstage hst
    · exact hi.replaced id' found hl hst
  · rw [hs', hregistry]
    intro relay entry hentry
    obtain ⟨found, hfound, hr⟩ := hi.owner relay entry hentry
    obtain ⟨found', hl, ⟨hid, rfl⟩ | ⟨-, rfl⟩⟩ :=
      Table.exists_lookup_insert (k := id) (a := session') hfound
    · rw [hid, hsession] at hfound
      rw [← Option.some.inj hfound] at hr
      exact ⟨found', hl, hrelay.trans hr⟩
    · exact ⟨found', hl, hr⟩
  · rw [hs', hregistry, hrelaySessions]
    intro relay id' found hcurrent hl hrep
    rcases Table.lookup_insert_cases hl with ⟨rfl, rfl⟩ | ⟨-, hl⟩
    · rw [hendpoint]
      exact hi.own relay id' session hcurrent hsession (hreplaced ▸ hrep)
    · exact hi.own relay id' found hcurrent hl hrep
  · rw [hregistry, hrelaySessions]
    intro relay entry hentry hforeign
    rcases hi.foreign relay entry hentry hforeign with ⟨id', found, hcurrent, hfound, hrep⟩ |
      ⟨hnone, id', found, hfound, hr, hst⟩
    · obtain ⟨found', hl, ⟨rfl, rfl⟩ | ⟨-, rfl⟩⟩ :=
        Table.exists_lookup_insert (k := id) (a := session') hfound
      · obtain rfl := Option.some.inj (hsession.symm.trans hfound)
        exact .inl ⟨id', found', hrelaySessions ▸ hcurrent, hs' ▸ hl, hreplaced.trans hrep⟩
      · exact .inl ⟨id', found', hrelaySessions ▸ hcurrent, hs' ▸ hl, hrep⟩
    · obtain ⟨found', hl, ⟨rfl, rfl⟩ | ⟨-, rfl⟩⟩ :=
        Table.exists_lookup_insert (k := id) (a := session') hfound
      · obtain rfl := Option.some.inj (hsession.symm.trans hfound)
        rcases hgone hst with hst' | hsome
        · exact .inr ⟨hrelaySessions ▸ hnone, id', found', hs' ▸ hl, hrelay.trans hr, hst'⟩
        · exact absurd (hr ▸ hnone) (hsome entry (hr ▸ hentry))
      · exact .inr ⟨hrelaySessions ▸ hnone, id', found', hs' ▸ hl, hr, hst⟩
  · exact hrefused

/-- A session takes over the entry of its Relay, or changes its own. -/
theorem Owned.enter (hi : s.Owned) {registry : RelayDirectoryRegistry} {next : ℕ}
    (hsession : s.sessions.lookup id = some session) (hrelay : session'.relay = session.relay)
    (hnamed : ∀ endpoint ∈ session'.endpoint, endpoint.id = session.relay)
    (hregistry : registry.sessions =
      s.registry.sessions.insert session.relay ⟨id, session'.endpoint⟩)
    (hreplaced : session'.replaced = true)
    (hstage : session'.stage = .opening ∨ session'.stage = .running)
    (hold : session.stage = .registered ∨ session.stage = .running)
    (hcurrent : s.relaySessions.lookup session.relay = some id ∨
      s.registry.isCurrent session.relay id = true) :
    (s.change id session' registry next).Owned := by
  have hunregistering : session.stage ≠ .unregistering := by
    rcases hold with h | h <;> rw [h] <;> decide
  have hother : ∀ relay, relay ≠ session.relay → s.relaySessions.lookup relay ≠ some id :=
    fun relay hne hc => hne (hi.relay_eq hc hsession).symm
  constructor
  · intro relay entry hl
    have hl : registry.sessions.lookup relay = some entry := hl
    rw [hregistry] at hl
    rcases Table.lookup_insert_cases hl with ⟨rfl, rfl⟩ | ⟨-, hl⟩
    · exact hnamed
    · exact hi.named relay entry hl
  · intro id' found hl
    rcases Table.lookup_insert_cases hl with ⟨-, rfl⟩ | ⟨-, hl⟩
    · show ∀ endpoint ∈ session'.endpoint, endpoint.id = session'.relay
      rw [hrelay]
      exact hnamed
    · exact hi.endpoint id' found hl
  · intro relay id' hc
    obtain ⟨found, hfound, hr, hstages⟩ := hi.live relay id' hc
    obtain ⟨found', hl, ⟨rfl, rfl⟩ | ⟨-, rfl⟩⟩ := Table.exists_lookup_insert (k := id)
      (a := { session' with publishing := some ⟨registry.directory, s.made.length⟩ }) hfound
    · obtain rfl := Option.some.inj (hsession.symm.trans hfound)
      refine ⟨_, hl, hrelay.trans hr, ?_⟩
      rcases hstage with h | h <;> simp [h]
    · exact ⟨found', hl, hr, hstages⟩
  · intro id' found hl hst
    rcases Table.lookup_insert_cases hl with ⟨-, rfl⟩ | ⟨-, hl⟩
    · exact hreplaced
    · exact hi.replaced id' found hl hst
  · intro relay entry hl
    have hl : registry.sessions.lookup relay = some entry := hl
    rw [hregistry] at hl
    rcases Table.lookup_insert_cases hl with ⟨rfl, rfl⟩ | ⟨-, hl⟩
    · exact ⟨_, AList.lookup_insert _, hrelay⟩
    · obtain ⟨found, hfound, hr⟩ := hi.owner relay entry hl
      obtain ⟨found', hl', ⟨hid, rfl⟩ | ⟨-, rfl⟩⟩ := Table.exists_lookup_insert (k := id)
        (a := { session' with publishing := some ⟨registry.directory, s.made.length⟩ }) hfound
      · rw [hid, hsession] at hfound
        rw [← Option.some.inj hfound] at hr
        exact ⟨_, hl', hrelay.trans hr⟩
      · exact ⟨found', hl', hr⟩
  · intro relay id' found hc hl hrep
    show registry.sessions.lookup relay = _
    rw [hregistry]
    rcases Table.lookup_insert_cases hl with ⟨rfl, rfl⟩ | ⟨hne, hl⟩
    · rw [← hi.relay_eq hc hsession, AList.lookup_insert]
    · have hown := hi.own relay id' found hc hl hrep
      by_cases hr : relay = session.relay
      · subst hr
        rcases hcurrent with hcurrent | hcurrent
        · exact absurd (Option.some.inj (hc.symm.trans hcurrent)) hne
        · obtain ⟨endpoint, hentry⟩ := RelayDirectoryRegistry.isCurrent_iff.mp hcurrent
          rw [hown] at hentry
          exact absurd (congrArg (·.sessionId) (Option.some.inj hentry)) hne
      · rw [AList.lookup_insert_ne hr]
        exact hown
  · intro relay entry hl hforeign
    have hl : registry.sessions.lookup relay = some entry := hl
    rw [hregistry] at hl
    have hbefore : s.Replacing relay ∨ s.Unregistering relay := by
      rcases Table.lookup_insert_cases hl with ⟨rfl, rfl⟩ | ⟨-, hl⟩
      · rcases hcurrent with hcurrent | hcurrent
        · exact absurd hcurrent hforeign
        · obtain ⟨endpoint, hentry⟩ := RelayDirectoryRegistry.isCurrent_iff.mp hcurrent
          exact hi.foreign _ _ hentry hforeign
      · exact hi.foreign relay entry hl hforeign
    rcases hbefore with ⟨id', found, hc, hfound, hrep⟩ | ⟨hnone, id', found, hfound, hr, hst⟩
    · obtain ⟨found', hl', ⟨rfl, rfl⟩ | ⟨-, rfl⟩⟩ := Table.exists_lookup_insert (k := id)
        (a := { session' with publishing := some ⟨registry.directory, s.made.length⟩ }) hfound
      · obtain rfl := hi.relay_eq hc hsession
        rw [AList.lookup_insert] at hl
        rw [← Option.some.inj hl] at hforeign
        exact absurd hc hforeign
      · exact .inl ⟨id', found', hc, hl', hrep⟩
    · obtain ⟨found', hl', ⟨rfl, rfl⟩ | ⟨-, rfl⟩⟩ := Table.exists_lookup_insert (k := id)
        (a := { session' with publishing := some ⟨registry.directory, s.made.length⟩ }) hfound
      · obtain rfl := Option.some.inj (hsession.symm.trans hfound)
        exact absurd hst hunregistering
      · exact .inr ⟨hnone, id', found', hl', hr, hst⟩
  · exact hi.refused

theorem Owned.connect (hi : s.Owned) {endpoint : Option RelayEndpoint}
    (hfree : s.sessions.lookup id = none) (hnamed : ∀ e ∈ endpoint, e.id = relay) :
    Owned { s.setSession id { relay, endpoint } with
      relaySessions := s.relaySessions.insert relay id } := by
  have hkept : ∀ {id' : Uuid} {found : RelaySession}, s.sessions.lookup id' = some found →
      (s.sessions.insert id { relay, endpoint }).lookup id' = some found := fun {id' found} hl => by
    have hne : id' ≠ id := by
      rintro rfl
      rw [hfree] at hl
      cases hl
    rw [AList.lookup_insert_ne hne]
    exact hl
  constructor
  · exact hi.named
  · intro id' found hl
    rcases Table.lookup_insert_cases hl with ⟨-, rfl⟩ | ⟨-, hl⟩
    · exact hnamed
    · exact hi.endpoint id' found hl
  · intro relay' id' hc
    rcases Table.lookup_insert_cases hc with ⟨rfl, rfl⟩ | ⟨-, hc⟩
    · exact ⟨_, AList.lookup_insert _, rfl, by simp, by simp⟩
    · obtain ⟨found, hfound, hrest⟩ := hi.live relay' id' hc
      exact ⟨found, hkept hfound, hrest⟩
  · intro id' found hl hst
    rcases Table.lookup_insert_cases hl with ⟨-, rfl⟩ | ⟨-, hl⟩
    · rcases hst with h | h <;> cases h
    · exact hi.replaced id' found hl hst
  · intro relay' entry hl
    obtain ⟨found, hfound, hr⟩ := hi.owner relay' entry hl
    exact ⟨found, hkept hfound, hr⟩
  · intro relay' id' found hc hl hrep
    rcases Table.lookup_insert_cases hl with ⟨-, rfl⟩ | ⟨hne, hl⟩
    · cases hrep
    · rcases Table.lookup_insert_cases hc with ⟨-, heq⟩ | ⟨-, hc⟩
      · exact absurd heq hne
      · exact hi.own relay' id' found hc hl hrep
  · intro relay' entry hl hforeign
    by_cases hr : relay' = relay
    · subst hr
      exact .inl ⟨id, _, AList.lookup_insert _, AList.lookup_insert _, rfl⟩
    · have hsame : (s.relaySessions.insert relay id).lookup relay' =
          s.relaySessions.lookup relay' := AList.lookup_insert_ne hr
      have hforeign : (s.relaySessions.insert relay id).lookup relay' ≠ some entry.sessionId :=
        hforeign
      rw [hsame] at hforeign
      rcases hi.foreign relay' entry hl hforeign with ⟨id', found, hc, hfound, hrep⟩ |
        ⟨hnone, id', found, hfound, hrest⟩
      · exact .inl ⟨id', found, hsame.trans hc, hkept hfound, hrep⟩
      · exact .inr ⟨hsame.trans hnone, id', found, hkept hfound, hrest⟩
  · exact hi.refused

/-- A session leaves `relay_sessions`, and is to unregister. -/
theorem Owned.leave (hi : s.Owned) (hsession : s.sessions.lookup id = some session)
    (hcurrent : s.relaySessions.lookup session.relay = some id) :
    Owned { s.setSession id { session with stage := .unregistering } with
      relaySessions := s.relaySessions.erase session.relay } := by
  constructor
  · exact hi.named
  · intro id' found hl
    rcases Table.lookup_insert_cases hl with ⟨-, rfl⟩ | ⟨-, hl⟩
    · exact hi.endpoint id session hsession
    · exact hi.endpoint id' found hl
  · intro relay' id' hc
    obtain ⟨hne, hold⟩ := Table.lookup_erase_cases hc
    obtain ⟨found, hfound, hr, hstages⟩ := hi.live relay' id' hold
    have hid : id' ≠ id := by
      rintro rfl
      exact hne (hi.relay_eq hold hsession).symm
    refine ⟨found, ?_, hr, hstages⟩
    show (s.sessions.insert id _).lookup id' = some found
    rw [AList.lookup_insert_ne hid]
    exact hfound
  · intro id' found hl hst
    rcases Table.lookup_insert_cases hl with ⟨-, rfl⟩ | ⟨-, hl⟩
    · rcases hst with h | h <;> cases h
    · exact hi.replaced id' found hl hst
  · intro relay' entry hl
    obtain ⟨found, hfound, hr⟩ := hi.owner relay' entry hl
    obtain ⟨found', hl', ⟨hid, rfl⟩ | ⟨-, rfl⟩⟩ := Table.exists_lookup_insert (k := id)
      (a := { session with stage := .unregistering }) hfound
    · rw [hid, hsession] at hfound
      rw [← Option.some.inj hfound] at hr
      exact ⟨_, hl', hr⟩
    · exact ⟨found', hl', hr⟩
  · intro relay' id' found hc hl hrep
    obtain ⟨hne, hold⟩ := Table.lookup_erase_cases hc
    rcases Table.lookup_insert_cases hl with ⟨rfl, -⟩ | ⟨-, hl⟩
    · exact absurd (hi.relay_eq hold hsession).symm hne
    · exact hi.own relay' id' found hold hl hrep
  · intro relay' entry hl hforeign
    by_cases hr : relay' = session.relay
    · subst hr
      exact .inr ⟨AList.lookup_erase _ _, id, _, AList.lookup_insert _, rfl, rfl⟩
    · have hsame : (s.relaySessions.erase session.relay).lookup relay' =
          s.relaySessions.lookup relay' := AList.lookup_erase_ne hr
      have hforeign : (s.relaySessions.erase session.relay).lookup relay' ≠ some entry.sessionId :=
        hforeign
      rw [hsame] at hforeign
      rcases hi.foreign relay' entry hl hforeign with ⟨id', found, hc, hfound, hrep⟩ |
        ⟨hnone, id', found, hfound, hrelay', hst⟩
      · have hid : id' ≠ id := by
          rintro rfl
          exact hr (hi.relay_eq hc hsession).symm
        refine .inl ⟨id', found, hsame.trans hc, ?_, hrep⟩
        exact (AList.lookup_insert_ne hid).trans hfound
      · have hid : id' ≠ id := by
          rintro rfl
          obtain rfl := Option.some.inj (hsession.symm.trans hfound)
          exact hr hrelay'.symm
        refine .inr ⟨hsame.trans hnone, id', found, ?_, hrelay', hst⟩
        exact (AList.lookup_insert_ne hid).trans hfound
  · exact hi.refused

/-- A session takes its entry away. -/
theorem Owned.unregister (hi : s.Owned) (hsession : s.sessions.lookup id = some session)
    (hstage : session.stage = .unregistering)
    (hcurrent : s.registry.isCurrent session.relay id = true) :
    (s.change id { session with stage := .ended }
      ⟨s.nextGeneration, s.registry.sessions.erase session.relay⟩ (s.nextGeneration + 1)).Owned := by
  obtain ⟨endpoint, hentry⟩ := RelayDirectoryRegistry.isCurrent_iff.mp hcurrent
  have hgone : ∀ relay id', s.relaySessions.lookup relay = some id' → id' ≠ id := by
    rintro relay id' hc rfl
    obtain ⟨found, hfound, -, hst, -⟩ := hi.live relay id' hc
    obtain rfl := Option.some.inj (hsession.symm.trans hfound)
    exact hst hstage
  constructor
  · intro relay entry hl
    exact hi.named relay entry (Table.lookup_erase_cases hl).2
  · intro id' found hl
    rcases Table.lookup_insert_cases hl with ⟨-, rfl⟩ | ⟨-, hl⟩
    · exact hi.endpoint id session hsession
    · exact hi.endpoint id' found hl
  · intro relay id' hc
    obtain ⟨found, hfound, hrest⟩ := hi.live relay id' hc
    exact ⟨found, (AList.lookup_insert_ne (hgone relay id' hc)).trans hfound, hrest⟩
  · intro id' found hl hst
    rcases Table.lookup_insert_cases hl with ⟨-, rfl⟩ | ⟨-, hl⟩
    · rcases hst with h | h <;> cases h
    · exact hi.replaced id' found hl hst
  · intro relay entry hl
    obtain ⟨found, hfound, hr⟩ := hi.owner relay entry (Table.lookup_erase_cases hl).2
    obtain ⟨found', hl', ⟨hid, rfl⟩ | ⟨-, rfl⟩⟩ := Table.exists_lookup_insert (k := id)
      (a := { session with
        stage := .ended
        publishing := some ⟨RelayDirectoryRegistry.directory
          ⟨s.nextGeneration, s.registry.sessions.erase session.relay⟩, s.made.length⟩ }) hfound
    · rw [hid, hsession] at hfound
      rw [← Option.some.inj hfound] at hr
      exact ⟨_, hl', hr⟩
    · exact ⟨found', hl', hr⟩
  · intro relay id' found hc hl hrep
    rcases Table.lookup_insert_cases hl with ⟨hid, -⟩ | ⟨hne, hl⟩
    · exact absurd hid (hgone relay id' hc)
    · have hown := hi.own relay id' found hc hl hrep
      have hr : relay ≠ session.relay := by
        rintro rfl
        rw [hown] at hentry
        exact hne (congrArg (·.sessionId) (Option.some.inj hentry))
      exact (AList.lookup_erase_ne hr).trans hown
  · intro relay entry hl hforeign
    obtain ⟨hr, hl⟩ := Table.lookup_erase_cases hl
    rcases hi.foreign relay entry hl hforeign with ⟨id', found, hc, hfound, hrep⟩ |
      ⟨hnone, id', found, hfound, hrelay', hst⟩
    · exact .inl ⟨id', found, hc, (AList.lookup_insert_ne (hgone relay id' hc)).trans hfound, hrep⟩
    · have hid : id' ≠ id := by
        rintro rfl
        obtain rfl := Option.some.inj (hsession.symm.trans hfound)
        exact hr hrelay'.symm
      exact .inr ⟨hnone, id', found, (AList.lookup_insert_ne hid).trans hfound, hrelay', hst⟩
  · exact hi.refused

theorem Owned.step (hi : s.Owned) (hok : s.orderly a) (h : s.Moves connectable a s') :
    s'.Owned := by
  cases h with
  | connect id relay endpoint hfree hnamed => exact hi.connect hfree hnamed
  | replace id stored session hsession hidle hstage =>
    exact hi.enter hsession rfl (hi.endpoint id session hsession) rfl rfl (.inl rfl) (.inl hstage)
      (.inl (hok session hsession))
  | update id endpoint stored session hsession hidle hstage hnamed hcurrent =>
    exact hi.enter hsession rfl hnamed rfl (hi.replaced id session hsession (.inr hstage))
      (.inr hstage) (.inr hstage) (.inr hcurrent)
  | unregister id stored session hsession hidle hstage hcurrent =>
    exact hi.unregister hsession hstage hcurrent
  | publish id session made hsession hmade =>
    exact hi.frame hsession rfl rfl rfl hi.refused rfl rfl rfl (hi.replaced id session hsession)
      (hi.stage hsession) .inl
  | send a id session hsession hidle hstage =>
    refine hi.frame hsession rfl rfl rfl hi.refused rfl rfl rfl
      (fun _ => hi.replaced id session hsession hstage) (fun _ => ⟨by simp, by simp⟩) fun h => ?_
    rcases hstage with hst | hst <;> rw [hst] at h <;> cases h
  | fail a id session refused hsession hidle hstage hrefused =>
    refine hi.frame hsession rfl rfl rfl ?_ rfl rfl rfl (fun h => by simp at h)
      (fun _ => ⟨by simp, by simp⟩) fun h => ?_
    · rcases hrefused with rfl | ⟨hrunning, hcurrent, rfl⟩
      · exact hi.refused
      · refine Log.forall_append hi.refused ?_
        rw [decide_eq_false_iff_not]
        intro hc
        have hreplaced := hi.replaced id session hsession (.inr hrunning)
        have hown := hi.own session.relay id session hc hsession hreplaced
        rw [RelayDirectoryRegistry.isCurrent_iff.mpr ⟨_, hown⟩] at hcurrent
        cases hcurrent
    · rw [h] at hstage
      simp at hstage
  | leave id session hsession hidle hstage hcurrent => exact hi.leave hsession hcurrent
  | gone a id session hsession hidle hstage =>
    refine hi.frame hsession rfl rfl rfl hi.refused rfl rfl rfl (fun h => by simp at h)
      (fun hc => ?_) fun h => ?_
    · have hst := (hi.stage hsession hc).1
      rcases hstage with ⟨-, hgone⟩ | ⟨hunregistering, -⟩
      · exact absurd hc hgone
      · exact absurd hunregistering hst
    · rcases hstage with ⟨hleaving, -⟩ | ⟨-, stored, rfl, hfailed⟩
      · rw [hleaving] at h
        cases h
      · refine .inr fun entry hentry hnone => ?_
        obtain ⟨hid, hsome⟩ :=
          hok session hsession (Option.isNone_iff_eq_none.mpr hnone) entry hentry
        have hcurrent : s.registry.isCurrent session.relay id = true :=
          RelayDirectoryRegistry.isCurrent_iff.mpr ⟨entry.endpoint, hid ▸ hentry⟩
        rcases hfailed with hfailed | hfailed
        · rw [hcurrent] at hfailed
          cases hfailed
        · rw [hfailed] at hsome
          cases hsome
  | deliver id session directory applied sent hsession hsent happlied =>
    exact hi.frame hsession rfl rfl rfl hi.refused rfl rfl rfl (hi.replaced id session hsession)
      (hi.stage hsession) .inl
  | close id session hsession =>
    exact hi.frame hsession rfl rfl rfl hi.refused rfl rfl rfl (hi.replaced id session hsession)
      (hi.stage hsession) .inl
  | sign stored =>
    exact ⟨hi.named, hi.endpoint, hi.live, hi.replaced, hi.owner, hi.own, hi.foreign, hi.refused⟩

/-- In orderly runs the entry of a Relay belongs to its session. -/
theorem belongs_of_orderly (connectable : String → Bool) (generation : ℕ) (s : Sys)
    (hr : (machine connectable generation).ReachableWhere orderly s) : s.Belongs := by
  have hstart : Owned (machine connectable generation).start := Owned.initial generation
  have hi : s.Owned := hr.invariant hstart
    fun _ _ _ _ hi hok hs => hi.step hok (step_moves hs)
  exact hi.belongs

/-- A session is superseded by one with another endpoint, which then disconnects. -/
theorem belongs_of_orderly_superseded :
    ∃ s, (machine (fun _ => true) 0).execWhere orderly
      [.connect 1 "relay-1" (some (sampleEndpoint "relay-1" "10.0.0.1:1")), .replace 1 true,
        .publish 1, .open 1,
        .connect 2 "relay-1" (some (sampleEndpoint "relay-1" "10.0.0.2:1")), .fail 1, .leave 1,
        .replace 2 true, .publish 2, .open 2] = some s ∧
    s.registry.directory.relays = [sampleEndpoint "relay-1" "10.0.0.2:1"] ∧ s.Belongs := by
  have hrun : ((machine (fun _ => true) 0).execWhere orderly
      [.connect 1 "relay-1" (some (sampleEndpoint "relay-1" "10.0.0.1:1")), .replace 1 true,
        .publish 1, .open 1,
        .connect 2 "relay-1" (some (sampleEndpoint "relay-1" "10.0.0.2:1")), .fail 1, .leave 1,
        .replace 2 true, .publish 2, .open 2]).map (fun s => s.registry.directory.relays) =
      some [sampleEndpoint "relay-1" "10.0.0.2:1"] := by
    decide
  obtain ⟨s, hs, heq⟩ := Option.map_eq_some_iff.mp hrun
  exact ⟨s, hs, heq, belongs_of_orderly (fun _ => true) 0 s (Machine.reachableWhere_of_execWhere hs)⟩

/-- A superseded session enters the directory after its successor. The successor is refused when it
updates its endpoint, and the entry outlasts both. -/
theorem not_belongs_of_reachable :
    ¬ ∀ (connectable : String → Bool) (generation : ℕ) (s : Sys),
      (machine connectable generation).Reachable s → s.Belongs := by
  intro hall
  have hrun : ((machine (fun _ => true) 0).exec
      [.connect 1 "relay-1" (some (sampleEndpoint "relay-1" "10.0.0.1:1")),
        .connect 2 "relay-1" (some (sampleEndpoint "relay-1" "10.0.0.2:1")), .replace 2 true,
        .publish 2, .open 2, .replace 1 true, .publish 1, .open 1, .fail 1, .leave 1,
        .update 2 (some (sampleEndpoint "relay-1" "10.0.0.3:1")) true, .leave 2,
        .unregister 2 true]).map (fun s => (s.sessions.values.all (·.stage == .ended), s.refused,
          s.registry.sessions.lookup "relay-1")) =
      some (true, [(2, true)], some ⟨1, some (sampleEndpoint "relay-1" "10.0.0.1:1")⟩) := by
    decide
  obtain ⟨s, hs, heq⟩ := Option.map_eq_some_iff.mp hrun
  obtain ⟨hended, hrest⟩ := Prod.mk.inj heq
  have hentry := (Prod.mk.inj hrest).2
  have hbelongs := hall (fun _ => true) 0 s (Machine.reachable_of_exec hs)
  have hnone := hbelongs.ended "relay-1" fun id session hsession _ => by
    simpa using List.all_eq_true.mp hended session (Table.mem_values.mpr ⟨id, hsession⟩)
  rw [hnone] at hentry
  cases hentry

end Sys
end FlowSplice.Server
