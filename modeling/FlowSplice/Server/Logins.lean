import FlowSplice.Lib.Machine
import FlowSplice.Server.Registries

/-! The history of the Travel logins: which leases were granted and which of them are over. -/
namespace FlowSplice.Server

inductive LoginEvent where
  | granted (travelId : String) (sessionId leaseId : Uuid) (instant : ℕ)
  | released (travelId : String) (sessionId leaseId : Uuid)
deriving DecidableEq, Repr

/-- `log` lists the leases that were granted and those that were released, in order. -/
structure Logins where
  registry : TravelSessionRegistry := {}
  instant : ℕ := 0
  log : List LoginEvent := []

inductive LoginAction where
  | authorize (travelId : String) (sessionId : Uuid) (leaseId : Option Uuid) (instant : ℕ)
  | release (travelId : String) (sessionId leaseId : Uuid)
  | prune (instant : ℕ)
deriving DecidableEq, Repr

namespace Logins

/-- The clock does not run backwards. -/
def step (s : Logins) : LoginAction → Option Logins
  | .authorize travelId sessionId leaseId instant =>
    if instant < s.instant then none
    else match s.registry.authorize travelId sessionId leaseId instant with
      | (.ok (), registry) => some
          { registry, instant
            log := s.log ++ leaseId.toList.map (.granted travelId sessionId · instant) }
      | (.error _, registry) => some { s with registry, instant }
  | .release travelId sessionId leaseId =>
    match s.registry.release travelId sessionId leaseId with
    | (true, registry) => some
        { s with registry, log := s.log ++ [.released travelId sessionId leaseId] }
    | (false, registry) => some { s with registry }
  | .prune instant =>
    if instant < s.instant then none
    else some { s with registry := s.registry.prune instant, instant }

def machine : Machine Logins LoginAction where
  start := {}
  step := step

/-- A lease that was granted at this instant and has not been released since. -/
def Held (log : List LoginEvent) (travelId : String) (sessionId leaseId : Uuid) (instant : ℕ) :
    Prop :=
  ∃ before after, log = before ++ .granted travelId sessionId leaseId instant :: after ∧
    LoginEvent.released travelId sessionId leaseId ∉ after

/-- The session of a Travel in the registry. -/
def Active (registry : TravelSessionRegistry) (travelId : String) (sessionId : Uuid) : Prop :=
  ∃ session, registry.sessions.lookup travelId = some session ∧ session.sessionId = sessionId

/-- The lease is in the registry, and ends no earlier than this. -/
def Leased (registry : TravelSessionRegistry) (travelId : String) (sessionId leaseId : Uuid)
    (ends : ℕ) : Prop :=
  ∃ session expires, registry.sessions.lookup travelId = some session ∧
    session.sessionId = sessionId ∧ session.leases.lookup leaseId = some expires ∧ ends ≤ expires

/-- A lease that is neither released nor expired is in the registry. -/
def Kept (s : Logins) : Prop :=
  ∀ travelId sessionId leaseId granted, Held s.log travelId sessionId leaseId granted →
    s.instant < granted + travelSessionLease →
    Leased s.registry travelId sessionId leaseId (granted + travelSessionLease)

variable {registry : TravelSessionRegistry} {travelId t : String} {sessionId leaseId id lease : Uuid}
  {ends instant now : ℕ} {log : List LoginEvent} {s s' : Logins}

theorem Held.of_append {e : LoginEvent} (h : Held (log ++ [e]) travelId sessionId leaseId instant) :
    e = .granted travelId sessionId leaseId instant ∨
      Held log travelId sessionId leaseId instant ∧ e ≠ .released travelId sessionId leaseId := by
  obtain ⟨before, after, hlog, hafter⟩ := h
  rcases List.eq_nil_or_concat' after with rfl | ⟨init, last, rfl⟩
  · have heq := List.append_inj' hlog rfl
    exact .inl (List.singleton_inj.mp heq.2)
  · rw [← List.cons_append, ← List.append_assoc] at hlog
    have heq := List.append_inj' hlog rfl
    have hlast : e = last := List.singleton_inj.mp heq.2
    subst hlast
    rw [List.mem_append, not_or] at hafter
    have hne : e ≠ .released travelId sessionId leaseId := fun he =>
      hafter.2 (he ▸ List.mem_cons_self)
    exact .inr ⟨⟨before, init, heq.1, hafter.1⟩, hne⟩

theorem lookup_prune {session : TravelSession} :
    (registry.prune now).sessions.lookup t = some session ↔
      ∃ old, registry.sessions.lookup t = some old ∧ session.leases.len ≠ 0 ∧
        session = { old with
          leases := old.leases.retain fun _ expires => decide (now < expires) } := by
  unfold TravelSessionRegistry.prune
  rw [Table.lookup_retain, Table.lookup_mapValues, Option.filter_eq_some_iff,
    Option.map_eq_some_iff]
  constructor
  · intro h
    obtain ⟨⟨old, hold, heq⟩, hlen⟩ := h
    exact ⟨old, hold, by simpa using hlen, heq.symm⟩
  · intro h
    obtain ⟨old, hold, hlen, heq⟩ := h
    exact ⟨⟨old, hold, heq.symm⟩, by simpa using hlen⟩

/-- Pruning keeps what ends later. -/
theorem Leased.prune (h : Leased registry travelId sessionId leaseId ends) (hnow : now < ends) :
    Leased (registry.prune now) travelId sessionId leaseId ends := by
  obtain ⟨session, expires, hsession, hid, hlease, hends⟩ := h
  have hkept : (session.leases.retain fun _ expires => decide (now < expires)).lookup leaseId =
      some expires := by
    rw [Table.lookup_retain, hlease]
    exact Option.filter_some_pos (decide_eq_true (by omega))
  have hlen : (session.leases.retain fun _ expires => decide (now < expires)).len ≠ 0 := by
    have hmem := Table.lookup_eq_some.mp hkept
    exact Nat.ne_of_gt (List.length_pos_of_mem hmem)
  have hpruned := lookup_prune.mpr ⟨session, hsession, hlen, rfl⟩
  exact ⟨_, expires, hpruned, hid, hkept, hends⟩

/-- A login that is authorized leaves the leases of its own session, and of other Travels, as they
are, or later. There is no other session of the Travel then. -/
theorem authorize_ok {leaseId : Option Uuid} {next : TravelSessionRegistry}
    (h : registry.authorize travelId sessionId leaseId now = (.ok (), next)) :
    (∀ lease ∈ leaseId, Leased next travelId sessionId lease (now + travelSessionLease)) ∧
      (∀ other lease ends, Leased (registry.prune now) travelId other lease ends →
        other = sessionId) ∧
      ∀ t id lease ends, Leased (registry.prune now) t id lease ends →
        ends ≤ now + travelSessionLease → Leased next t id lease ends := by
  unfold TravelSessionRegistry.authorize at h
  dsimp only at h
  split_ifs at h with hnil
  · cases h
  split at h
  next lease? active hactive =>
    split_ifs at h with hother
    · cases h
    have hid : active.sessionId = sessionId := not_not.mp hother
    have hsole : ∀ other lease ends, Leased (registry.prune now) travelId other lease ends →
        other = sessionId := by
      intro other lease ends hleased
      obtain ⟨session, expires, hsession, hsame, -⟩ := hleased
      rw [hactive] at hsession
      rw [← hsame, ← Option.some.inj hsession, hid]
    split at h
    next leaseId =>
      cases h
      refine ⟨?_, hsole, ?_⟩
      · intro lease hlease
        cases hlease
        exact ⟨_, _, AList.lookup_insert _, hid, AList.lookup_insert _, le_rfl⟩
      · intro t id lease ends hleased hends
        obtain ⟨session, expires, hsession, hsame, hlease, hle⟩ := hleased
        by_cases ht : t = travelId
        · subst ht
          rw [hactive] at hsession
          obtain rfl := Option.some.inj hsession
          by_cases hl : lease = leaseId
          · subst hl
            exact ⟨_, _, AList.lookup_insert _, hsame, AList.lookup_insert _, hends⟩
          · refine ⟨_, expires, AList.lookup_insert _, hsame, ?_, hle⟩
            rw [AList.lookup_insert_ne hl]
            exact hlease
        · refine ⟨session, expires, ?_, hsame, hlease, hle⟩
          rw [AList.lookup_insert_ne ht]
          exact hsession
    next =>
      cases h
      exact ⟨fun lease hlease => (by cases hlease), hsole, fun t id lease ends hleased _ => hleased⟩
  next => cases h
  next leaseId hnone =>
    cases h
    refine ⟨?_, ?_, ?_⟩
    · intro lease hlease
      cases hlease
      exact ⟨_, _, AList.lookup_insert _, rfl, AList.lookup_insert _, le_rfl⟩
    · intro other lease ends hleased
      obtain ⟨session, expires, hsession, -⟩ := hleased
      rw [hnone] at hsession
      cases hsession
    · intro t id lease ends hleased hends
      obtain ⟨session, expires, hsession, hsame, hlease, hle⟩ := hleased
      have ht : t ≠ travelId := by
        rintro rfl
        rw [hnone] at hsession
        cases hsession
      refine ⟨session, expires, ?_, hsame, hlease, hle⟩
      rw [AList.lookup_insert_ne ht]
      exact hsession

theorem authorize_error {leaseId : Option Uuid} {error : SessionError}
    {next : TravelSessionRegistry}
    (h : registry.authorize travelId sessionId leaseId now = (.error error, next)) :
    next = registry.prune now := by
  unfold TravelSessionRegistry.authorize at h
  dsimp only at h
  split_ifs at h with hnil
  · cases h
    rfl
  split at h
  next lease? active hactive =>
    split_ifs at h with hother
    · cases h
      rfl
    · split at h <;> cases h
  next =>
    cases h
    rfl
  next => cases h

/-- A release takes one lease of one session. -/
theorem Leased.release (h : Leased registry t id lease ends)
    (hne : (registry.release travelId sessionId leaseId).1 = true →
      ¬ (t = travelId ∧ id = sessionId ∧ lease = leaseId)) :
    Leased (registry.release travelId sessionId leaseId).2 t id lease ends := by
  obtain ⟨session, expires, hsession, hid, hlease, hends⟩ := h
  have hleased : Leased registry t id lease ends := ⟨session, expires, hsession, hid, hlease, hends⟩
  unfold TravelSessionRegistry.release at hne ⊢
  cases hactive : registry.sessions.lookup travelId with
  | none => exact hleased
  | some active =>
    dsimp only
    rw [hactive] at hne
    dsimp only at hne
    by_cases hrefused : active.sessionId ≠ sessionId ∨ (active.leases.lookup leaseId).isNone
    · rw [if_pos hrefused]
      exact hleased
    · rw [if_neg hrefused] at hne ⊢
      rw [not_or, not_not] at hrefused
      by_cases ht : t = travelId
      · subst ht
        rw [hactive] at hsession
        obtain rfl := Option.some.inj hsession
        have hl : lease ≠ leaseId := by
          rintro rfl
          split_ifs at hne <;> exact hne rfl ⟨rfl, hid.symm.trans hrefused.1, rfl⟩
        have hkept : (active.leases.erase leaseId).lookup lease = some expires := by
          rw [AList.lookup_erase_ne hl]
          exact hlease
        have hlen : Table.len (active.leases.erase leaseId) ≠ 0 :=
          Nat.ne_of_gt (List.length_pos_of_mem (Table.lookup_eq_some.mp hkept))
        rw [if_neg hlen]
        exact ⟨_, expires, AList.lookup_insert _, hid, hkept, hends⟩
      · split_ifs
        · refine ⟨session, expires, ?_, hid, hlease, hends⟩
          show (registry.sessions.erase travelId).lookup t = some session
          rw [AList.lookup_erase_ne ht]
          exact hsession
        · refine ⟨session, expires, ?_, hid, hlease, hends⟩
          rw [AList.lookup_insert_ne ht]
          exact hsession

/-- The leases were granted before now. -/
def Past (s : Logins) : Prop :=
  ∀ travelId sessionId leaseId granted,
    .granted travelId sessionId leaseId granted ∈ s.log → granted ≤ s.instant

theorem Held.mem (h : Held log travelId sessionId leaseId instant) :
    .granted travelId sessionId leaseId instant ∈ log := by
  obtain ⟨before, after, rfl, -⟩ := h
  exact List.mem_append_right _ List.mem_cons_self

theorem Past.step {a : LoginAction} (h : s.step a = some s') (hpast : Past s) : Past s' := by
  intro t id lease granted hmem
  cases a with
  | authorize travelId sessionId leaseId instant =>
    unfold Logins.step at h
    dsimp only at h
    split_ifs at h with hclock
    split at h
    next registry hauthorized =>
      cases h
      rw [List.mem_append] at hmem
      rcases hmem with hold | hnew
      · have hle := hpast t id lease granted hold
        show granted ≤ instant
        omega
      · obtain ⟨lease', -, heq⟩ := List.mem_map.mp hnew
        cases heq
        exact le_rfl
    next error registry hauthorized =>
      cases h
      have hle := hpast t id lease granted hmem
      show granted ≤ instant
      omega
  | release travelId sessionId leaseId =>
    unfold Logins.step at h
    dsimp only at h
    split at h
    next registry hreleased =>
      cases h
      rw [List.mem_append, List.mem_singleton] at hmem
      rcases hmem with hold | hnew
      · exact hpast t id lease granted hold
      · cases hnew
    next registry hreleased =>
      cases h
      exact hpast t id lease granted hmem
  | prune instant =>
    unfold Logins.step at h
    dsimp only at h
    split_ifs at h with hclock
    cases h
    have hle := hpast t id lease granted hmem
    show granted ≤ instant
    omega

theorem Kept.step {a : LoginAction} (h : s.step a = some s') (hpast : Past s) (hkept : Kept s) :
    Kept s' := by
  intro t id lease granted hheld hlive
  cases a with
  | authorize travelId sessionId leaseId instant =>
    unfold Logins.step at h
    dsimp only at h
    split_ifs at h with hclock
    have hpruned : Held s.log t id lease granted → instant < granted + travelSessionLease →
        Leased (s.registry.prune instant) t id lease (granted + travelSessionLease) := by
      intro hold hnow
      exact (hkept t id lease granted hold (by omega)).prune hnow
    split at h
    next registry hauthorized =>
      cases h
      have hok := authorize_ok hauthorized
      have hcarried : Held s.log t id lease granted →
          Leased registry t id lease (granted + travelSessionLease) := by
        intro hold
        have hle := hpast t id lease granted hold.mem
        exact hok.2.2 t id lease _ (hpruned hold hlive) (by omega)
      cases leaseId with
      | none => exact hcarried (by simpa using hheld)
      | some leaseId =>
        rcases Held.of_append hheld with hnew | hold
        · cases hnew
          exact hok.1 lease rfl
        · exact hcarried hold.1
    next error registry hauthorized =>
      cases h
      rw [authorize_error hauthorized]
      exact hpruned hheld hlive
  | release travelId sessionId leaseId =>
    unfold Logins.step at h
    dsimp only at h
    split at h
    next registry hreleased =>
      cases h
      rcases Held.of_append hheld with hnew | hold
      · cases hnew
      · have hleased := hkept t id lease granted hold.1 hlive
        have hnext : Leased (s.registry.release travelId sessionId leaseId).2 t id lease
            (granted + travelSessionLease) :=
          hleased.release fun _ hsame => hold.2 (by rw [hsame.1, hsame.2.1, hsame.2.2])
        rw [hreleased] at hnext
        exact hnext
    next registry hreleased =>
      cases h
      have hleased := hkept t id lease granted hheld hlive
      have hnext : Leased (s.registry.release travelId sessionId leaseId).2 t id lease
          (granted + travelSessionLease) :=
        hleased.release fun htrue => by
          rw [hreleased] at htrue
          cases htrue
      rw [hreleased] at hnext
      exact hnext
  | prune instant =>
    unfold Logins.step at h
    dsimp only at h
    split_ifs at h with hclock
    cases h
    have hlive : instant < granted + travelSessionLease := hlive
    exact (hkept t id lease granted hheld (by omega)).prune hlive

theorem kept_of_reachable (h : machine.Reachable s) : Past s ∧ Kept s := by
  apply h.invariant
  · constructor
    · intro t id lease granted hmem
      cases hmem
    · intro t id lease granted hheld
      cases hheld.mem
  · intro s a s' hinv hstep
    exact ⟨hinv.1.step hstep, hinv.2.step hstep hinv.1⟩

/-- Pruning neither starts nor prolongs a login. -/
theorem Leased.of_prune (h : Leased (registry.prune now) t id lease ends) :
    Leased registry t id lease ends := by
  obtain ⟨session, expires, hsession, hid, hlease, hends⟩ := h
  obtain ⟨old, hold, -, rfl⟩ := lookup_prune.mp hsession
  rw [Table.lookup_retain] at hlease
  have hlease := (Option.filter_eq_some_iff.mp hlease).1
  exact ⟨old, expires, hold, hid, hlease, hends⟩

theorem Active.of_prune (h : Active (registry.prune now) t id) : Active registry t id := by
  obtain ⟨session, hsession, hid⟩ := h
  obtain ⟨old, hold, -, rfl⟩ := lookup_prune.mp hsession
  exact ⟨old, hold, hid⟩

/-- A login without a lease only prunes. -/
theorem authorize_none :
    (registry.authorize travelId sessionId none now).2 = registry.prune now := by
  unfold TravelSessionRegistry.authorize
  dsimp only
  split_ifs
  · rfl
  · cases (registry.prune now).sessions.lookup travelId with
    | none => rfl
    | some active =>
      dsimp only
      split_ifs <;> rfl

/-- At every time a Travel has one login: another session is let in only when every lease of the
first is released or over, a session with a lease that is neither is in the registry, and a call
without a lease neither starts nor prolongs a session. -/
theorem exclusive (h : machine.Reachable s) :
    (∀ travelId sessionId leaseId now registry, s.instant ≤ now →
      s.registry.authorize travelId sessionId leaseId now = (.ok (), registry) →
      ∀ other lease granted, other ≠ sessionId → Held s.log travelId other lease granted →
        granted + travelSessionLease ≤ now) ∧
    (∀ travelId sessionId lease granted now, Held s.log travelId sessionId lease granted →
      s.instant ≤ now → now < granted + travelSessionLease →
      ∀ other leaseId, other ≠ sessionId →
        (s.registry.authorize travelId other leaseId now).1 ≠ .ok ()) ∧
    (∀ travelId sessionId lease granted, Held s.log travelId sessionId lease granted →
      s.instant < granted + travelSessionLease → Active s.registry travelId sessionId) ∧
    ∀ travelId sessionId now,
      let next := (s.registry.authorize travelId sessionId none now).2
      (∀ t id, Active next t id → Active s.registry t id) ∧
        ∀ t id lease ends, Leased next t id lease ends → Leased s.registry t id lease ends := by
  have hkept := (kept_of_reachable h).2
  have hover : ∀ travelId sessionId leaseId now registry, s.instant ≤ now →
      s.registry.authorize travelId sessionId leaseId now = (.ok (), registry) →
      ∀ other lease granted, other ≠ sessionId → Held s.log travelId other lease granted →
        granted + travelSessionLease ≤ now := by
    intro travelId sessionId leaseId now registry hclock hok other lease granted hne hheld
    by_contra hlive
    have hnow : now < granted + travelSessionLease := by omega
    have hleased := (hkept travelId other lease granted hheld (by omega)).prune hnow
    exact hne ((authorize_ok hok).2.1 other lease _ hleased)
  refine ⟨hover, ?_, ?_, ?_⟩
  · intro travelId sessionId lease granted now hheld hclock hlive other leaseId hne hok
    have hpair : s.registry.authorize travelId other leaseId now =
        (.ok (), (s.registry.authorize travelId other leaseId now).2) := by rw [← hok]
    have hle := hover travelId other leaseId now _ hclock hpair sessionId lease granted
      hne.symm hheld
    omega
  · intro travelId sessionId lease granted hheld hlive
    obtain ⟨session, -, hsession, hid, -⟩ := hkept travelId sessionId lease granted hheld hlive
    exact ⟨session, hsession, hid⟩
  · intro travelId sessionId now
    dsimp only
    rw [authorize_none]
    exact ⟨fun t id => Active.of_prune, fun t id lease ends => Leased.of_prune⟩

/-- A session with two leases that lost one of them, and another device that asks. -/
theorem exclusive_after_release : ∃ s, machine.Reachable s ∧
    Held s.log "laptop" 1 8 10 ∧ Active s.registry "laptop" 1 ∧
    (s.registry.authorize "laptop" 2 (some 9) 20).1 ≠ .ok () := by
  have hrun : (machine.exec [.authorize "laptop" 1 (some 7) 0, .authorize "laptop" 1 (some 8) 10,
      .release "laptop" 1 7]).map (fun s => (s.log, s.instant)) =
      some ([.granted "laptop" 1 7 0, .granted "laptop" 1 8 10, .released "laptop" 1 7], 10) := by
    decide
  obtain ⟨s, hexec, hs⟩ := Option.map_eq_some_iff.mp hrun
  rw [Prod.mk.injEq] at hs
  have hreach := Machine.reachable_of_exec hexec
  have hheld : Held s.log "laptop" 1 8 10 :=
    ⟨[.granted "laptop" 1 7 0], [.released "laptop" 1 7], hs.1, by decide⟩
  have hexclusive := exclusive hreach
  refine ⟨s, hreach, hheld, ?_, ?_⟩
  · apply hexclusive.2.2.1 "laptop" 1 8 10 hheld
    rw [hs.2]
    decide
  · apply hexclusive.2.1 "laptop" 1 8 10 20 hheld
    · rw [hs.2]
      decide
    · decide
    · decide

end Logins
end FlowSplice.Server
