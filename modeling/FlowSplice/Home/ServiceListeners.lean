import FlowSplice.Home.Services

/-! Which listener the registry leads to, and which connections a listener gets. -/
namespace FlowSplice.Services

variable {π : Type} {s s' : Sys π} {a : Action π} {listener : Listener π} {call : Connect π}
  {protocol : ServiceProtocol} {serviceId : String} {backlog : ℕ} {id : Uuid} {i j c : ℕ}

namespace Sys

/-- The registry is that of the listeners whose registration lasts. -/
structure Indexed (s : Sys π) : Prop where
  entries : s.alive = true → ∀ key entry, s.entries.lookup key = some entry ↔
    ∃ listener : Listener π, s.listeners[entry.sender]? = some listener ∧
      listener.registered = true ∧ listener.key = key ∧
      listener.registration = entry.registration
  once : ∀ (i j : ℕ) (a b : Listener π), s.listeners[i]? = some a → s.listeners[j]? = some b →
    a.registered = true → b.registered = true → a.key = b.key → i = j
  receiver : ∀ (i : ℕ) (listener : Listener π), s.listeners[i]? = some listener →
    listener.channel.receiver = true → listener.registered = true

theorem bind_ok {next : Sys π} (h : s.bind protocol serviceId backlog id = .ok next) :
    validateBacklog backlog = true ∧ serviceId.isEmpty = false ∧
      s.entries.lookup (serviceId, protocol) = none ∧
      next = { s with
        entries := s.entries.insert (serviceId, protocol) ⟨id, s.listeners.length⟩
        listeners := s.listeners ++ [{
          key := (serviceId, protocol), registration := id, channel := .channel _ backlog }]
        drawn := id :: s.drawn } := by
  unfold Sys.bind at h
  split_ifs at h with hbacklog hempty
  cases hentry : s.entries.lookup (serviceId, protocol) with
  | some entry =>
    rw [hentry] at h
    cases h
  | none =>
    rw [hentry] at h
    exact ⟨Bool.eq_true_of_not_eq_false hbacklog, Bool.eq_false_of_not_eq_true hempty, rfl,
      (Except.ok.inj h).symm⟩

/-- What a step can do. -/
inductive Moves (s : Sys π) : Sys π → Prop where
  | same : Moves s s
  | bind (protocol : ServiceProtocol) (serviceId : String) (backlog : ℕ) (id : Uuid)
      (next : Sys π) (ha : s.alive = true)
      (h : s.bind protocol serviceId backlog id = .ok next) : Moves s next
  | connect (protocol : ServiceProtocol) (service : Control.Service) (peer : π)
      (ha : s.alive = true) : Moves s
        { s with calls := s.calls ++ [⟨protocol, service, peer, s.lookup protocol service⟩] }
  | send (c l : ℕ) (call : Connect π) (listener : Listener π) (channel : Mailbox (ℕ × π))
      (hc : s.calls[c]? = some call) (hphase : call.phase = .sending l)
      (hl : s.listeners[l]? = some listener)
      (hpush : listener.channel.push (c, call.peer) = some channel) :
      Moves s ((s.setListener l { listener with channel }).setCall c
        { call with phase := .connected l })
  | quit (c l : ℕ) (call : Connect π) (phase : Phase) (hc : s.calls[c]? = some call)
      (hphase : call.phase = .sending l) (hquit : phase = .failed .closed ∨ phase = .cancelled) :
      Moves s (s.setCall c { call with phase })
  | set (l : ℕ) (listener : Listener π) (channel : Mailbox (ℕ × π))
      (hl : s.listeners[l]? = some listener) (hsent : channel.sent = listener.channel.sent)
      (hr : channel.receiver = true → listener.channel.receiver = true) :
      Moves s (s.setListener l { listener with channel })
  | release (l : ℕ) (listener : Listener π) (hl : s.listeners[l]? = some listener)
      (hended : listener.channel.receiver = false) (hr : listener.registered = true) :
      Moves s { s.setListener l { listener with registered := false } with
        entries := s.release listener }
  | dropRegistry : Moves s { s with alive := false, entries := ∅ }

theorem moves_of_step (h : s.step a = some s') : Moves s s' := by
  cases a with
  | bind protocol serviceId backlog id =>
    simp only [step] at h
    split_ifs at h with hfresh
    cases hbind : s.bind protocol serviceId backlog id with
    | ok next =>
      rw [hbind] at h
      have halive : s.alive = true := Bool.eq_true_of_not_eq_false fun hend => hfresh (Or.inl hend)
      rw [← Option.some.inj h]
      exact .bind protocol serviceId backlog id next halive hbind
    | error error =>
      rw [hbind] at h
      rw [← Option.some.inj h]
      exact .same
  | connect protocol service peer =>
    simp only [step] at h
    split_ifs at h with halive
    rw [← Option.some.inj h]
    exact .connect protocol service peer (Bool.eq_true_of_not_eq_false halive)
  | send c =>
    simp only [step] at h
    cases hcall : s.calls[c]? with
    | none =>
      rw [hcall] at h
      cases h
    | some call =>
      rw [hcall] at h
      cases hphase : call.phase with
      | sending l =>
        simp only [hphase] at h
        cases hl : s.listeners[l]? with
        | none =>
          rw [hl] at h
          cases h
        | some listener =>
          simp only [hl] at h
          split_ifs at h with hended
          · rw [← Option.some.inj h]
            exact .quit c l call _ hcall hphase (Or.inl rfl)
          · obtain ⟨channel, hpush, rfl⟩ := Option.map_eq_some_iff.mp h
            exact .send c l call listener channel hcall hphase hl hpush
      | _ =>
        simp only [hphase] at h
        cases h
  | cancel c =>
    simp only [step] at h
    cases hcall : s.calls[c]? with
    | none =>
      rw [hcall] at h
      cases h
    | some call =>
      rw [hcall] at h
      cases hphase : call.phase with
      | sending l =>
        simp only [hphase] at h
        rw [← Option.some.inj h]
        exact .quit c l call _ hcall hphase (Or.inr rfl)
      | _ =>
        simp only [hphase] at h
        cases h
  | accept l =>
    simp only [step] at h
    cases hl : s.listeners[l]? with
    | none =>
      rw [hl] at h
      cases h
    | some listener =>
      simp only [hl] at h
      cases hpop : listener.channel.pop with
      | some popped =>
        rw [hpop] at h
        rw [← Option.some.inj h]
        exact .set l listener popped.2 hl (Mailbox.sent_pop hpop)
          fun hr => (Mailbox.pop_eq_some hpop).1.symm.trans hr
      | none =>
        simp only [hpop] at h
        split_ifs at h
        rw [← Option.some.inj h]
        exact .same
  | close l =>
    simp only [step] at h
    cases hl : s.listeners[l]? with
    | none =>
      rw [hl] at h
      cases h
    | some listener =>
      simp only [hl] at h
      split_ifs at h with hopen
      rw [← Option.some.inj h]
      exact .set l listener listener.channel.close hl Mailbox.sent_close fun _ => hopen
  | release l =>
    simp only [step] at h
    cases hl : s.listeners[l]? with
    | none =>
      rw [hl] at h
      cases h
    | some listener =>
      simp only [hl] at h
      split_ifs at h with hended
      rw [← Option.some.inj h]
      exact .release l listener hl hended.1 hended.2
  | dropRegistry =>
    simp only [step] at h
    split_ifs at h
    rw [← Option.some.inj h]
    exact .dropRegistry

namespace Indexed

theorem lookup (h : Indexed s) (halive : s.alive = true) (hi : s.listeners[i]? = some listener)
    (hr : listener.registered = true) :
    s.entries.lookup listener.key = some ⟨listener.registration, i⟩ :=
  (h.entries halive listener.key ⟨listener.registration, i⟩).mpr ⟨listener, hi, hr, rfl, rfl⟩

theorem frame (h : Indexed s) (hl : s'.listeners = s.listeners) (he : s'.entries = s.entries)
    (ha : s'.alive = s.alive) : Indexed s' where
  entries := by
    rw [hl, he, ha]
    exact h.entries
  once := by
    rw [hl]
    exact h.once
  receiver := by
    rw [hl]
    exact h.receiver

theorem bind (h : Indexed s) {next : Sys π} (halive : s.alive = true)
    (hbind : s.bind protocol serviceId backlog id = .ok next) : Indexed next := by
  obtain ⟨-, -, hfree, rfl⟩ := bind_ok hbind
  have hapart : ∀ (k : ℕ) (held : Listener π), s.listeners[k]? = some held →
      held.registered = true → held.key ≠ (serviceId, protocol) := by
    intro k held hk hr hkey
    have hlookup := h.lookup halive hk hr
    rw [hkey, hfree] at hlookup
    cases hlookup
  constructor
  · intro _ key entry
    constructor
    · intro hlookup
      rcases Table.lookup_insert_cases hlookup with ⟨rfl, rfl⟩ | ⟨-, hold⟩
      · exact ⟨_, List.getElem?_concat_length, rfl, rfl, rfl⟩
      · obtain ⟨held, hk, hheld⟩ := (h.entries halive key entry).mp hold
        exact ⟨held, Log.getElem?_append_of_some hk, hheld⟩
    · rintro ⟨held, hk, hr, rfl, hid⟩
      rcases Cells.getElem?_append_cases hk with ⟨hlen, rfl⟩ | ⟨-, hold⟩
      · have hentry : entry = ⟨id, s.listeners.length⟩ := by
          cases entry
          cases hid
          cases hlen
          rfl
        rw [hentry]
        exact AList.lookup_insert _
      · show (s.entries.insert _ _).lookup held.key = some entry
        rw [AList.lookup_insert_ne (hapart _ held hold hr)]
        exact (h.entries halive held.key entry).mpr ⟨held, hold, hr, rfl, hid⟩
  · intro i j a b hi hj ha hb hkey
    rcases Cells.getElem?_append_cases hi with ⟨rfl, rfl⟩ | ⟨-, hi⟩ <;>
      rcases Cells.getElem?_append_cases hj with ⟨rfl, rfl⟩ | ⟨-, hj⟩
    · rfl
    · exact absurd hkey.symm (hapart j b hj hb)
    · exact absurd hkey (hapart i a hi ha)
    · exact h.once i j a b hi hj ha hb hkey
  · intro i held hi hr
    rcases Cells.getElem?_append_cases hi with ⟨-, rfl⟩ | ⟨-, hi⟩
    · rfl
    · exact h.receiver i held hi hr

/-- A listener's channel changes, and nothing that the registry tells by. -/
theorem set (h : Indexed s) {channel : Mailbox (ℕ × π)} (hi : s.listeners[i]? = some listener)
    (hc : channel.receiver = true → listener.channel.receiver = true)
    (hl : s'.listeners = s.listeners.set i { listener with channel })
    (he : s'.entries = s.entries) (ha : s'.alive = s.alive) : Indexed s' := by
  have hback : ∀ (k : ℕ) (held : Listener π), s'.listeners[k]? = some held →
      ∃ old : Listener π, s.listeners[k]? = some old ∧ old.registered = held.registered ∧
        old.key = held.key ∧ old.registration = held.registration ∧
        (held.channel.receiver = true → old.channel.receiver = true) := by
    intro k held hk
    rw [hl] at hk
    rcases Cells.getElem?_set_cases hi hk with ⟨rfl, rfl⟩ | ⟨-, hk⟩
    · exact ⟨listener, hi, rfl, rfl, rfl, hc⟩
    · exact ⟨held, hk, rfl, rfl, rfl, fun hr => hr⟩
  have hforth : ∀ (k : ℕ) (old : Listener π), s.listeners[k]? = some old →
      ∃ held : Listener π, s'.listeners[k]? = some held ∧ held.registered = old.registered ∧
        held.key = old.key ∧ held.registration = old.registration := by
    intro k old hk
    rw [hl]
    obtain ⟨held, hheld, ⟨rfl, rfl, rfl⟩ | ⟨-, rfl⟩⟩ :=
      Cells.exists_getElem?_set { listener with channel } hi hk
    · exact ⟨_, hheld, rfl, rfl, rfl⟩
    · exact ⟨held, hheld, rfl, rfl, rfl⟩
  constructor
  · intro halive key entry
    rw [ha] at halive
    rw [he, h.entries halive key entry]
    constructor
    · rintro ⟨old, hk, hr, hkey, hid⟩
      obtain ⟨held, hheld, hr', hkey', hid'⟩ := hforth _ old hk
      exact ⟨held, hheld, hr'.trans hr, hkey'.trans hkey, hid'.trans hid⟩
    · rintro ⟨held, hk, hr, hkey, hid⟩
      obtain ⟨old, hold, hr', hkey', hid', -⟩ := hback _ held hk
      exact ⟨old, hold, hr'.trans hr, hkey'.trans hkey, hid'.trans hid⟩
  · intro k l a b hk hl hra hrb hkey
    obtain ⟨a', ha', hra', hkeya, -⟩ := hback k a hk
    obtain ⟨b', hb', hrb', hkeyb, -⟩ := hback l b hl
    have hkey' : a'.key = b'.key := hkeya.trans (hkey.trans hkeyb.symm)
    exact h.once k l a' b' ha' hb' (hra'.trans hra) (hrb'.trans hrb) hkey'
  · intro k held hk hr
    obtain ⟨old, hold, hr', -, -, hreceiver⟩ := hback k held hk
    exact hr'.symm.trans (h.receiver k old hold (hreceiver hr))

/-- The end of a registration takes the entry of its listener, and no other's. -/
theorem release (h : Indexed s) (hi : s.listeners[i]? = some listener)
    (hended : listener.channel.receiver = false) (hr : listener.registered = true) :
    Indexed { s.setListener i { listener with registered := false } with
      entries := s.release listener } := by
  have hcases : ∀ (k : ℕ) (held : Listener π),
      (s.listeners.set i { listener with registered := false })[k]? = some held →
      held.registered = true → k ≠ i ∧ s.listeners[k]? = some held := by
    intro k held hk hheld
    rcases Cells.getElem?_set_cases hi hk with ⟨-, rfl⟩ | hother
    · cases hheld
    · exact hother
  constructor
  · intro halive key entry
    have hown := h.lookup halive hi hr
    have hentries : s.release listener = s.entries.erase listener.key := by
      unfold Sys.release
      rw [hown]
      exact if_pos rfl
    rw [hentries]
    constructor
    · intro hlookup
      obtain ⟨hne, hold⟩ := Table.lookup_erase_cases hlookup
      obtain ⟨held, hk, hheld, hkey, hid⟩ := (h.entries halive key entry).mp hold
      have hother : i ≠ entry.sender := by
        rintro rfl
        rw [hi] at hk
        rw [← Option.some.inj hk] at hkey
        exact hne hkey.symm
      refine ⟨held, ?_, hheld, hkey, hid⟩
      show (s.listeners.set i _)[entry.sender]? = some held
      rw [List.getElem?_set_ne hother]
      exact hk
    · rintro ⟨held, hk, hheld, rfl, hid⟩
      obtain ⟨hne, hold⟩ := hcases _ held hk hheld
      have hkey : held.key ≠ listener.key := fun heq =>
        hne (h.once _ _ held listener hold hi hheld hr heq)
      rw [AList.lookup_erase_ne hkey]
      exact (h.entries halive held.key entry).mpr ⟨held, hold, hheld, rfl, hid⟩
  · intro k l a b hk hl ha hb hkey
    exact h.once k l a b (hcases k a hk ha).2 (hcases l b hl hb).2 ha hb hkey
  · intro k held hk hheld
    rcases Cells.getElem?_set_cases hi hk with ⟨-, rfl⟩ | ⟨-, hold⟩
    · have hopen : listener.channel.receiver = true := hheld
      rw [hended] at hopen
      cases hopen
    · exact h.receiver k held hold hheld

theorem step (h : Indexed s) (hs : s.step a = some s') : Indexed s' := by
  cases moves_of_step hs with
  | same => exact h
  | bind protocol serviceId backlog id _ ha hbind => exact h.bind ha hbind
  | connect protocol service peer ha => exact h.frame rfl rfl rfl
  | send c l call listener channel hc hphase hl hpush =>
    exact h.set hl (fun _ => (Mailbox.push_eq_some hpush).1) rfl rfl rfl
  | quit c l call phase hc hphase hquit => exact h.frame rfl rfl rfl
  | set l listener channel hl hsent hr => exact h.set hl hr rfl rfl rfl
  | release l listener hl hended hr => exact h.release hl hended hr
  | dropRegistry =>
    exact {
      entries := fun halive => by cases halive
      once := h.once
      receiver := h.receiver }

theorem of_reachable (h : (machine π).Reachable s) : Indexed s := by
  apply h.invariant
  · constructor
    · intro _ key entry
      constructor
      · intro hlookup
        cases hlookup
      · rintro ⟨listener, hl, -⟩
        cases hl
    · intro i j a b hi
      cases hi
    · intro i listener hi
      cases hi
  · exact fun _ _ _ hp hs => hp.step hs

end Indexed

/-- What a caller sees of the registry: a connection goes to the one listener of its key, and a key
can be bound where no listener has it. -/
structure Registered (s : Sys π) : Prop where
  connects : s.alive = true → ∀ protocol service l, s.lookup protocol service = .sending l ↔
    service.protocol = protocol ∧ ∃ listener : Listener π, s.listeners[l]? = some listener ∧
      listener.registered = true ∧ listener.key = (service.id, service.protocol)
  binds : s.alive = true → ∀ protocol serviceId backlog id,
    (∃ next, s.bind protocol serviceId backlog id = .ok next) ↔
      (0 < backlog ∧ backlog ≤ maxPermits) ∧ serviceId ≠ "" ∧
        ∀ listener ∈ s.listeners, listener.registered = true →
          listener.key ≠ (serviceId, protocol)
  one : ∀ (i j : ℕ) (a b : Listener π), s.listeners[i]? = some a → s.listeners[j]? = some b →
    a.registered = true → b.registered = true → a.key = b.key → i = j

theorem validateBacklog_iff : validateBacklog backlog = true ↔ 0 < backlog ∧ backlog ≤ maxPermits := by
  unfold validateBacklog
  rw [Bool.and_eq_true, bne_iff_ne, decide_eq_true_iff, Nat.pos_iff_ne_zero]

theorem isEmpty_eq_false_iff : serviceId.isEmpty = false ↔ serviceId ≠ "" := by
  rw [← Bool.not_eq_true, String.isEmpty_iff]

namespace Indexed

theorem lookup_eq_sending (h : Indexed s) (halive : s.alive = true) (service : Control.Service) :
    s.lookup protocol service = .sending i ↔ service.protocol = protocol ∧
      ∃ listener : Listener π, s.listeners[i]? = some listener ∧ listener.registered = true ∧
        listener.key = (service.id, service.protocol) := by
  unfold Sys.lookup
  cases hentry : s.entries.lookup (service.id, service.protocol) with
  | none =>
    constructor
    · intro hphase
      cases hphase
    · rintro ⟨-, listener, hl, hr, hkey⟩
      have hlookup := h.lookup halive hl hr
      rw [hkey, hentry] at hlookup
      cases hlookup
  | some entry =>
    dsimp only
    split_ifs with hprotocol
    · constructor
      · intro hphase
        rw [← Phase.sending.inj hphase]
        obtain ⟨listener, hl, hr, hkey, -⟩ := (h.entries halive _ entry).mp hentry
        exact ⟨hprotocol, listener, hl, hr, hkey⟩
      · rintro ⟨-, listener, hl, hr, hkey⟩
        have hlookup := h.lookup halive hl hr
        rw [hkey, hentry] at hlookup
        rw [Option.some.inj hlookup]
    · constructor
      · intro hphase
        cases hphase
      · rintro ⟨heq, -⟩
        exact absurd heq hprotocol

theorem bind_ok_iff (h : Indexed s) (halive : s.alive = true) :
    (∃ next, s.bind protocol serviceId backlog id = .ok next) ↔
      (0 < backlog ∧ backlog ≤ maxPermits) ∧ serviceId ≠ "" ∧
        ∀ listener ∈ s.listeners, listener.registered = true →
          listener.key ≠ (serviceId, protocol) := by
  rw [← validateBacklog_iff, ← isEmpty_eq_false_iff]
  constructor
  · rintro ⟨next, hnext⟩
    obtain ⟨hbacklog, hempty, hfree, -⟩ := bind_ok hnext
    refine ⟨hbacklog, hempty, ?_⟩
    intro listener hl hr hkey
    obtain ⟨i, hi⟩ := List.getElem?_of_mem hl
    have hlookup := h.lookup halive hi hr
    rw [hkey, hfree] at hlookup
    cases hlookup
  · rintro ⟨hbacklog, hempty, hfree⟩
    have hnone : s.entries.lookup (serviceId, protocol) = none := by
      cases hentry : s.entries.lookup (serviceId, protocol) with
      | none => rfl
      | some entry =>
        obtain ⟨listener, hl, hr, hkey, -⟩ := (h.entries halive _ entry).mp hentry
        exact absurd hkey (hfree listener (List.mem_of_getElem? hl) hr)
    unfold Sys.bind
    rw [hbacklog, hempty, hnone]
    exact ⟨_, rfl⟩

end Indexed

/-- What was sent to a listener, and by which calls. -/
structure Delivered (s : Sys π) : Prop where
  sent : ∀ (l : ℕ) (listener : Listener π), s.listeners[l]? = some listener →
    ∀ c peer, (c, peer) ∈ listener.channel.sent → ∃ call : Connect π, s.calls[c]? = some call ∧
      call.phase = .connected l ∧ call.peer = peer
  nodup : ∀ (l : ℕ) (listener : Listener π), s.listeners[l]? = some listener →
    (listener.channel.sent.map Prod.fst).Nodup
  connected : ∀ (c : ℕ) (call : Connect π) l, s.calls[c]? = some call →
    call.phase = .connected l → ∃ listener : Listener π, s.listeners[l]? = some listener ∧
      (c, call.peer) ∈ listener.channel.sent
  target : ∀ (c : ℕ) (call : Connect π) l, s.calls[c]? = some call →
    (call.phase = .sending l ∨ call.phase = .connected l) → call.service.protocol = call.protocol ∧
      ∃ listener : Listener π, s.listeners[l]? = some listener ∧
        listener.key = (call.service.id, call.service.protocol)

namespace Delivered

/-- The listeners keep their keys and what was sent to them, and new ones were sent nothing. -/
theorem frame (h : Delivered s) (hcalls : s'.calls = s.calls)
    (hback : ∀ (l : ℕ) (listener : Listener π), s'.listeners[l]? = some listener →
      (∃ old : Listener π, s.listeners[l]? = some old ∧
        listener.channel.sent = old.channel.sent) ∨ listener.channel.sent = [])
    (hforth : ∀ (l : ℕ) (old : Listener π), s.listeners[l]? = some old →
      ∃ listener : Listener π, s'.listeners[l]? = some listener ∧ listener.key = old.key ∧
        listener.channel.sent = old.channel.sent) : Delivered s' where
  sent l listener hl c peer hmem := by
    rw [hcalls]
    rcases hback l listener hl with ⟨old, hold, hsent⟩ | hnil
    · rw [hsent] at hmem
      exact h.sent l old hold c peer hmem
    · rw [hnil] at hmem
      cases hmem
  nodup l listener hl := by
    rcases hback l listener hl with ⟨old, hold, hsent⟩ | hnil
    · rw [hsent]
      exact h.nodup l old hold
    · rw [hnil]
      exact .nil
  connected c call l hc hphase := by
    rw [hcalls] at hc
    obtain ⟨old, hold, hmem⟩ := h.connected c call l hc hphase
    obtain ⟨listener, hl, -, hsent⟩ := hforth l old hold
    rw [← hsent] at hmem
    exact ⟨listener, hl, hmem⟩
  target c call l hc hphase := by
    rw [hcalls] at hc
    obtain ⟨hprotocol, old, hold, hkey⟩ := h.target c call l hc hphase
    obtain ⟨listener, hl, hkey', -⟩ := hforth l old hold
    exact ⟨hprotocol, listener, hl, hkey'.trans hkey⟩

/-- One listener is replaced by one of its key that was sent the same. -/
theorem set (h : Delivered s) {l : ℕ} (next : Listener π) (hl : s.listeners[l]? = some listener)
    (hkey : next.key = listener.key) (hsent : next.channel.sent = listener.channel.sent)
    (hcalls : s'.calls = s.calls) (hlisteners : s'.listeners = s.listeners.set l next) :
    Delivered s' := by
  apply h.frame hcalls
  · intro k held hk
    left
    rw [hlisteners] at hk
    rcases Cells.getElem?_set_cases hl hk with ⟨rfl, rfl⟩ | ⟨-, hk⟩
    · exact ⟨listener, hl, hsent⟩
    · exact ⟨held, hk, rfl⟩
  · intro k old hk
    rw [hlisteners]
    obtain ⟨held, hheld, ⟨rfl, rfl, rfl⟩ | ⟨-, rfl⟩⟩ := Cells.exists_getElem?_set next hl hk
    · exact ⟨_, hheld, hkey, hsent⟩
    · exact ⟨held, hheld, rfl, rfl⟩

theorem bind (h : Delivered s) {next : Sys π}
    (hbind : s.bind protocol serviceId backlog id = .ok next) : Delivered next := by
  obtain ⟨-, -, -, rfl⟩ := bind_ok hbind
  apply h.frame
  · rfl
  · intro l listener hl
    rcases Cells.getElem?_append_cases hl with ⟨-, rfl⟩ | ⟨-, hold⟩
    · exact Or.inr rfl
    · exact Or.inl ⟨listener, hold, rfl⟩
  · intro l old hold
    exact ⟨old, Log.getElem?_append_of_some hold, rfl, rfl⟩

theorem connect (h : Delivered s) (hi : Indexed s) (halive : s.alive = true)
    (protocol : ServiceProtocol) (service : Control.Service) (peer : π) : Delivered
      { s with calls := s.calls ++ [⟨protocol, service, peer, s.lookup protocol service⟩] } where
  sent l listener hl c peer' hmem := by
    obtain ⟨call, hc, hcall⟩ := h.sent l listener hl c peer' hmem
    exact ⟨call, Log.getElem?_append_of_some hc, hcall⟩
  nodup := h.nodup
  connected c call l hc hphase := by
    rcases Cells.getElem?_append_cases hc with ⟨-, rfl⟩ | ⟨-, hold⟩
    · unfold Sys.lookup at hphase
      cases hentry : s.entries.lookup (service.id, service.protocol) with
      | none =>
        rw [hentry] at hphase
        cases hphase
      | some entry =>
        rw [hentry] at hphase
        dsimp only at hphase
        split_ifs at hphase
    · exact h.connected c call l hold hphase
  target c call l hc hphase := by
    rcases Cells.getElem?_append_cases hc with ⟨-, rfl⟩ | ⟨-, hold⟩
    · have hsending : s.lookup protocol service = .sending l := by
        rcases hphase with hsending | hconnected
        · exact hsending
        · unfold Sys.lookup at hconnected
          cases hentry : s.entries.lookup (service.id, service.protocol) with
          | none =>
            rw [hentry] at hconnected
            cases hconnected
          | some entry =>
            rw [hentry] at hconnected
            dsimp only at hconnected
            split_ifs at hconnected
      obtain ⟨hprotocol, listener, hl, -, hkey⟩ := (hi.lookup_eq_sending halive service).mp hsending
      exact ⟨hprotocol, listener, hl, hkey⟩
    · exact h.target c call l hold hphase

/-- A call that was sending ends without having sent. -/
theorem quit (h : Delivered s) {l : ℕ} {phase : Phase} (hc : s.calls[c]? = some call)
    (hphase : call.phase = .sending l) (hquit : phase = .failed .closed ∨ phase = .cancelled) :
    Delivered (s.setCall c { call with phase }) := by
  have hnot : ∀ k, phase ≠ .sending k ∧ phase ≠ .connected k := by
    intro k
    rcases hquit with rfl | rfl <;> exact ⟨(fun heq => by cases heq), (fun heq => by cases heq)⟩
  constructor
  · intro k listener hk c' peer hmem
    obtain ⟨call', hc', hphase', hpeer⟩ := h.sent k listener hk c' peer hmem
    have hne : c ≠ c' := by
      rintro rfl
      rw [hc] at hc'
      rw [← Option.some.inj hc', hphase] at hphase'
      cases hphase'
    exact ⟨call', (List.getElem?_set_ne hne).trans hc', hphase', hpeer⟩
  · exact h.nodup
  · intro c' call' k hc' hphase'
    rcases Cells.getElem?_set_cases hc hc' with ⟨-, rfl⟩ | ⟨-, hold⟩
    · exact absurd hphase' (hnot k).2
    · exact h.connected c' call' k hold hphase'
  · intro c' call' k hc' hphase'
    rcases Cells.getElem?_set_cases hc hc' with ⟨-, rfl⟩ | ⟨-, hold⟩
    · rcases hphase' with hsending | hconnected
      · exact absurd hsending (hnot k).1
      · exact absurd hconnected (hnot k).2
    · exact h.target c' call' k hold hphase'

theorem send (h : Delivered s) {l : ℕ} {channel : Mailbox (ℕ × π)} (hc : s.calls[c]? = some call)
    (hphase : call.phase = .sending l) (hl : s.listeners[l]? = some listener)
    (hpush : listener.channel.push (c, call.peer) = some channel) :
    Delivered ((s.setListener l { listener with channel }).setCall c
      { call with phase := .connected l }) := by
  have hsent := Mailbox.sent_push hpush
  have hfresh : ∀ (k : ℕ) (held : Listener π), s.listeners[k]? = some held →
      ∀ peer, (c, peer) ∉ held.channel.sent := by
    intro k held hk peer hmem
    obtain ⟨call', hc', hphase', -⟩ := h.sent k held hk c peer hmem
    rw [hc] at hc'
    rw [← Option.some.inj hc', hphase] at hphase'
    cases hphase'
  have hkeep : ∀ (k : ℕ) (held : Listener π), s.listeners[k]? = some held →
      ∃ next : Listener π, (s.listeners.set l { listener with channel })[k]? = some next ∧
        next.key = held.key ∧ ∀ item ∈ held.channel.sent, item ∈ next.channel.sent := by
    intro k held hk
    obtain ⟨next, hnext, ⟨rfl, rfl, rfl⟩ | ⟨-, rfl⟩⟩ :=
      Cells.exists_getElem?_set { listener with channel } hl hk
    · refine ⟨_, hnext, rfl, ?_⟩
      intro item hitem
      show item ∈ channel.sent
      rw [hsent]
      exact List.mem_append_left _ hitem
    · exact ⟨next, hnext, rfl, fun _ hitem => hitem⟩
  constructor
  · intro k held hk c' peer hmem
    have hold : (c', peer) = (c, call.peer) ∧ k = l ∨
        ∃ old : Listener π, s.listeners[k]? = some old ∧ (c', peer) ∈ old.channel.sent := by
      rcases Cells.getElem?_set_cases hl hk with ⟨rfl, rfl⟩ | ⟨-, hk⟩
      · have hmem' : (c', peer) ∈ channel.sent := hmem
        rw [hsent] at hmem'
        rcases List.mem_append.mp hmem' with hold | hnew
        · exact Or.inr ⟨listener, hl, hold⟩
        · exact Or.inl ⟨List.mem_singleton.mp hnew, rfl⟩
      · exact Or.inr ⟨held, hk, hmem⟩
    rcases hold with ⟨heq, rfl⟩ | ⟨old, hk', hmem'⟩
    · cases heq
      have hlt : c < s.calls.length := (List.getElem?_eq_some_iff.mp hc).1
      exact ⟨_, List.getElem?_set_self hlt, rfl, rfl⟩
    · obtain ⟨call', hc', hphase', hpeer⟩ := h.sent k old hk' c' peer hmem'
      have hne : c ≠ c' := by
        rintro rfl
        exact hfresh k old hk' peer hmem'
      exact ⟨call', (List.getElem?_set_ne hne).trans hc', hphase', hpeer⟩
  · intro k held hk
    rcases Cells.getElem?_set_cases hl hk with ⟨rfl, rfl⟩ | ⟨-, hk⟩
    · show (channel.sent.map Prod.fst).Nodup
      rw [hsent, List.map_append, List.nodup_append]
      refine ⟨h.nodup _ listener hl, List.nodup_singleton _, ?_⟩
      rintro c' hc' _ hnew rfl
      rw [List.mem_singleton.mp hnew] at hc'
      obtain ⟨⟨held, peer⟩, hitem, hfst⟩ := List.mem_map.mp hc'
      obtain rfl : held = c := hfst
      exact hfresh _ listener hl peer hitem
    · exact h.nodup k held hk
  · intro c' call' k hc' hphase'
    rcases Cells.getElem?_set_cases hc hc' with ⟨rfl, rfl⟩ | ⟨-, hold⟩
    · obtain rfl : l = k := Phase.connected.inj hphase'
      have hlt : l < s.listeners.length := (List.getElem?_eq_some_iff.mp hl).1
      refine ⟨_, List.getElem?_set_self hlt, ?_⟩
      show (c', call.peer) ∈ channel.sent
      rw [hsent]
      exact Log.mem_append_self
    · obtain ⟨held, hk, hmem⟩ := h.connected c' call' k hold hphase'
      obtain ⟨next, hnext, -, hsub⟩ := hkeep k held hk
      exact ⟨next, hnext, hsub _ hmem⟩
  · intro c' call' k hc' hphase'
    have hold : (∃ call₀ : Connect π, s.calls[c']? = some call₀ ∧ call₀.service = call'.service ∧
        call₀.protocol = call'.protocol ∧
        (call₀.phase = .sending k ∨ call₀.phase = .connected k)) := by
      rcases Cells.getElem?_set_cases hc hc' with ⟨rfl, rfl⟩ | ⟨-, hold⟩
      · refine ⟨call, hc, rfl, rfl, Or.inl ?_⟩
        rcases hphase' with hsending | hconnected
        · cases hsending
        · rw [← Phase.connected.inj hconnected]
          exact hphase
      · exact ⟨call', hold, rfl, rfl, hphase'⟩
    obtain ⟨call₀, hc₀, hservice, hprotocol, hphase₀⟩ := hold
    obtain ⟨heq, held, hk, hkey⟩ := h.target c' call₀ k hc₀ hphase₀
    obtain ⟨next, hnext, hkey', -⟩ := hkeep k held hk
    rw [hservice] at heq hkey
    rw [hprotocol] at heq
    exact ⟨heq, next, hnext, hkey'.trans hkey⟩

theorem step (h : Delivered s) (hi : Indexed s) (hs : s.step a = some s') : Delivered s' := by
  cases moves_of_step hs with
  | same => exact h
  | bind protocol serviceId backlog id _ ha hbind => exact h.bind hbind
  | connect protocol service peer ha => exact h.connect hi ha protocol service peer
  | send c l call listener channel hc hphase hl hpush => exact h.send hc hphase hl hpush
  | quit c l call phase hc hphase hquit => exact h.quit hc hphase hquit
  | set l listener channel hl hsent hr =>
    exact h.set { listener with channel } hl rfl hsent rfl rfl
  | release l listener hl hended hr =>
    exact h.set { listener with registered := false } hl rfl rfl rfl rfl
  | dropRegistry =>
    exact {
      sent := h.sent
      nodup := h.nodup
      connected := h.connected
      target := h.target }

theorem of_reachable (h : (machine π).Reachable s) : Delivered s := by
  have hboth : Indexed s ∧ Delivered s := by
    apply h.invariant
    · refine ⟨Indexed.of_reachable .refl, ?_⟩
      constructor
      · intro l listener hl
        cases hl
      · intro l listener hl
        cases hl
      · intro c call l hc
        cases hc
      · intro c call l hc
        cases hc
    · intro t a t' ht hs
      exact ⟨ht.1.step hs, ht.2.step ht.1 hs⟩
  exact hboth.2

end Delivered
end Sys

/-- A connection is got at most once, by a listener of its service, in the order of the sends. One
that succeeded is queued or was got, unless its listener has ended; one that still sends can go on
unless the queue of a listener is full. -/
structure Sys.Connects (s : Sys π) : Prop where
  got : ∀ (l : ℕ) (listener : Listener π), s.listeners[l]? = some listener →
    listener.channel.received <+: listener.channel.sent ∧
      ∀ c peer, (c, peer) ∈ listener.channel.received → ∃ call : Connect π,
        s.calls[c]? = some call ∧ call.phase = .connected l ∧ call.peer = peer ∧
          listener.key = (call.service.id, call.protocol)
  once : ∀ (l k : ℕ) (listener other : Listener π), s.listeners[l]? = some listener →
    s.listeners[k]? = some other → (listener.channel.sent.map Prod.fst).Nodup ∧
      ∀ c peer peer', (c, peer) ∈ listener.channel.sent → (c, peer') ∈ other.channel.sent → l = k
  kept : ∀ (c : ℕ) (call : Connect π) l, s.calls[c]? = some call → call.phase = .connected l →
    ∃ listener : Listener π, s.listeners[l]? = some listener ∧
      ((c, call.peer) ∈ listener.channel.received ∨ (c, call.peer) ∈ listener.channel.queue ∨
        listener.channel.receiver = false ∧ (c, call.peer) ∈ listener.channel.lost)
  bounded : ∀ listener ∈ s.listeners,
    listener.channel.queue.length ≤ listener.channel.capacity
  waits : ∀ (c : ℕ) (call : Connect π) l, s.calls[c]? = some call → call.phase = .sending l →
    (s.step (.send c) = none ↔ ∃ listener : Listener π, s.listeners[l]? = some listener ∧
      listener.channel.receiver = true ∧
      listener.channel.queue.length = listener.channel.capacity)

theorem Sys.Delivered.send_eq_none (h : s.Delivered) {l : ℕ} (hc : s.calls[c]? = some call)
    (hphase : call.phase = .sending l) : s.step (.send c) = none ↔
      ∃ listener : Listener π, s.listeners[l]? = some listener ∧
        listener.channel.receiver = true ∧
        listener.channel.queue.length = listener.channel.capacity := by
  obtain ⟨-, listener, hl, -⟩ := h.target c call l hc (Or.inl hphase)
  unfold Sys.step
  simp only [hc, hphase, hl]
  by_cases hended : listener.channel.receiver = false
  · rw [if_pos hended]
    constructor
    · intro hnone
      cases hnone
    · rintro ⟨held, hheld, hopen, -⟩
      rw [← Option.some.inj hheld, hended] at hopen
      cases hopen
  · have hopen : listener.channel.receiver = true := Bool.eq_true_of_not_eq_false hended
    rw [if_neg hended, Option.map_eq_none_iff, Mailbox.push_eq_none]
    constructor
    · intro hfull
      exact ⟨listener, rfl, hopen, hfull hopen⟩
    · rintro ⟨held, hheld, -, hfull⟩ -
      rw [Option.some.inj hheld]
      exact hfull

/-- In every run the registry leads to the one listener whose registration lasts, and to no other. -/
theorem registry_exact (h : (machine π).Reachable s) : s.Registered where
  connects halive _ service _ := (Sys.Indexed.of_reachable h).lookup_eq_sending halive service
  binds halive _ _ _ _ := (Sys.Indexed.of_reachable h).bind_ok_iff halive
  one := (Sys.Indexed.of_reachable h).once

theorem connections_delivered (h : (machine π).Reachable s) : s.Connects := by
  have hd := Sys.Delivered.of_reachable h
  constructor
  · intro l listener hl
    refine ⟨Mailbox.received_isPrefix, ?_⟩
    intro c peer hmem
    have hsent : (c, peer) ∈ listener.channel.sent := Mailbox.received_isPrefix.subset hmem
    obtain ⟨call, hc, hphase, hpeer⟩ := hd.sent l listener hl c peer hsent
    obtain ⟨hprotocol, held, hheld, hkey⟩ := hd.target c call l hc (Or.inr hphase)
    rw [hl] at hheld
    rw [hprotocol, ← Option.some.inj hheld] at hkey
    exact ⟨call, hc, hphase, hpeer, hkey⟩
  · intro l k listener other hl hk
    refine ⟨hd.nodup l listener hl, ?_⟩
    intro c peer peer' hmem hmem'
    obtain ⟨call, hc, hphase, -⟩ := hd.sent l listener hl c peer hmem
    obtain ⟨call', hc', hphase', -⟩ := hd.sent k other hk c peer' hmem'
    rw [hc] at hc'
    rw [← Option.some.inj hc', hphase] at hphase'
    exact Phase.connected.inj hphase'
  · intro c call l hc hphase
    obtain ⟨listener, hl, hmem⟩ := hd.connected c call l hc hphase
    refine ⟨listener, hl, ?_⟩
    rcases List.mem_append.mp hmem with hearly | hlost
    · rcases List.mem_append.mp hearly with hreceived | hqueued
      · exact Or.inl hreceived
      · exact Or.inr (Or.inl hqueued)
    · right
      right
      refine ⟨?_, hlost⟩
      cases hr : listener.channel.receiver with
      | false => rfl
      | true =>
        rw [listener.channel.lost_eq hr] at hlost
        cases hlost
  · intro listener _
    exact listener.channel.fits
  · intro c call l hc hphase
    exact hd.send_eq_none hc hphase

/-- A listener is replaced by another of its key while a call still sends to the first. -/
def sampleRun : List (Action ℕ) :=
  [.bind .tcp "terminal" 1 7, .connect .tcp ⟨"terminal", "", .tcp, ""⟩ 5, .send 0,
    .connect .tcp ⟨"terminal", "", .tcp, ""⟩ 6, .accept 0, .send 1, .close 0, .release 0,
    .bind .tcp "terminal" 1 8, .connect .tcp ⟨"terminal", "", .tcp, ""⟩ 9, .send 2, .accept 1]

def sampleEnd : Sys ℕ := ((machine ℕ).exec sampleRun).getD {}

theorem sampleEnd_reachable : (machine ℕ).Reachable sampleEnd := by
  have hrun : (machine ℕ).exec sampleRun = some sampleEnd := rfl
  exact Machine.reachable_of_exec hrun

theorem registry_exact_sample :
    sampleEnd.entries.lookup ("terminal", .tcp) = some ⟨8, 1⟩ ∧ sampleEnd.Registered :=
  ⟨rfl, registry_exact sampleEnd_reachable⟩

theorem connections_delivered_sample :
    sampleEnd.listeners.map (fun listener => (listener.channel.received, listener.channel.lost)) =
      [([(0, 5)], [(1, 6)]), ([(2, 9)], [])] ∧ sampleEnd.Connects :=
  ⟨rfl, connections_delivered sampleEnd_reachable⟩

end FlowSplice.Services
