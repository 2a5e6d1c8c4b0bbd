import FlowSplice.Flow.Wiring

/-! What the Carriers of a flow hold: frames of this flow only, in the kinds each end sends, and
an OPEN_OK only ahead of everything else. -/
namespace FlowSplice.Flow

/-- Frames that Travel sends to Home. -/
def ofTravel (flowId : Uuid) : DataFrame → Prop
  | .race id _ _ | .data id _ _ | .ack id _ | .duplicate id _ _ | .fin id _ | .finAck id _ =>
    id = flowId
  | _ => False

/-- Frames that Home sends to Travel behind an OPEN_OK. -/
def ofHome (flowId : Uuid) : DataFrame → Prop
  | .raceAck id _ _ | .raceDuplicate id _ _ | .data id _ _ | .ack id _ | .duplicate id _ _
  | .fin id _ | .finAck id _ | .close id _ => id = flowId
  | _ => False

/-- A Carrier with id `c`; `held` says that Home has it in its map. -/
structure Link.Framed (l : Link) (flowId c : Uuid) (held : Prop) : Prop where
  toHome : ∀ f ∈ l.toHome, ofTravel flowId f
  offered : l.offered = true → l.toHome = [] ∧ l.toTravel = [] ∧ l.spawned = false ∧ ¬ held
  spawned : l.spawned = true → ∀ f ∈ l.toTravel, ofHome flowId f
  pending : l.offered = false → l.spawned = false →
    (l.toTravel = [] ∧ (l.up = false ∨ ¬ held)) ∨
      ∃ n m v rest, l.toTravel = .openOk flowId c n m v :: rest ∧
        ∀ f ∈ rest, ofHome flowId f

namespace Link.Framed
variable {l : Link} {flowId c : Uuid} {held held' : Prop}

theorem of_held (h : l.Framed flowId c held) (hh : held' → held) : l.Framed flowId c held' :=
  ⟨h.toHome, fun ho => ⟨(h.offered ho).1, (h.offered ho).2.1, (h.offered ho).2.2.1,
      fun hn => (h.offered ho).2.2.2 (hh hn)⟩, h.spawned,
    fun ho hs => (h.pending ho hs).imp_left fun hp => hp.imp_right (·.imp_right fun hn h' => hn (hh h'))⟩

theorem fresh : Link.Framed {} flowId c held :=
  ⟨fun _ hf => (by cases hf), fun ho => (by cases ho), fun hs => (by cases hs),
    fun _ _ => .inl ⟨rfl, .inl rfl⟩⟩

theorem offer (hn : ¬ held) :
    Link.Framed { up := true, offered := true } flowId c held :=
  ⟨fun _ hf => (by cases hf), fun _ => ⟨rfl, rfl, rfl, hn⟩, fun hs => (by cases hs),
    fun ho => (by cases ho)⟩

theorem pushHome (h : l.Framed flowId c held) {fs : List DataFrame} (hs : l.spawned = true)
    (hfs : ∀ f ∈ fs, ofTravel flowId f) : (l.pushHome fs).Framed flowId c held := by
  unfold Link.pushHome
  split_ifs
  · refine ⟨fun f hf => (List.mem_append.mp hf).elim (h.toHome f) (hfs f), fun ho => ?_,
      h.spawned, fun _ hns => ?_⟩
    · exact absurd hs (by simp [(h.offered ho).2.2.1])
    · exact absurd hs (by simpa using hns)
  · exact h

theorem pushTravel (h : l.Framed flowId c held) {fs : List DataFrame} (hh : held)
    (hfs : ∀ f ∈ fs, ofHome flowId f) : (l.pushTravel fs).Framed flowId c held := by
  unfold Link.pushTravel
  split_ifs with hup
  · refine ⟨h.toHome, fun ho => absurd hh (h.offered ho).2.2.2,
      fun hs f hf => (List.mem_append.mp hf).elim (h.spawned hs f) (hfs f), fun ho hs => .inr ?_⟩
    obtain ⟨-, hd⟩ | ⟨n, m, v, rest, hq, hrest⟩ := h.pending ho hs
    · rcases hd with hd | hd
      · exact absurd hup (by simp [hd])
      · exact absurd hh hd
    · refine ⟨n, m, v, rest ++ fs, by simp [hq], fun f hf => ?_⟩
      exact (List.mem_append.mp hf).elim (hrest f) (hfs f)
  · exact h

theorem popHome (h : l.Framed flowId c held) {f : DataFrame} {rest : List DataFrame}
    (hq : l.toHome = f :: rest) : Link.Framed { l with toHome := rest } flowId c held :=
  ⟨fun g hg => h.toHome g (hq ▸ List.mem_cons_of_mem _ hg),
    fun ho => absurd (h.offered ho).1 (by simp [hq]), h.spawned, h.pending⟩

theorem popTravel (h : l.Framed flowId c held) {f : DataFrame} {rest : List DataFrame}
    (hs : l.spawned = true) (hq : l.toTravel = f :: rest) :
    Link.Framed { l with toTravel := rest } flowId c held :=
  ⟨h.toHome, fun ho => absurd (h.offered ho).2.1 (by simp [hq]),
    fun _ g hg => h.spawned hs g (hq ▸ List.mem_cons_of_mem _ hg),
    fun _ hns => absurd hs (by simpa using hns)⟩

/-- Only what Home sent behind an OPEN_OK is left once Travel has taken it. -/
theorem opened (h : l.Framed flowId c held) {id id' n m v : ℕ} {rest : List DataFrame}
    (hq : l.toTravel = .openOk id id' n m v :: rest) :
    Link.Framed { l with toTravel := rest, spawned := true } flowId c held := by
  have hns : l.spawned = false := by
    by_contra hs
    exact h.spawned (by simpa using hs) _ (hq ▸ List.mem_cons_self)
  have ho : l.offered = false := by
    by_contra ho
    have := (h.offered (by simpa using ho)).2.1
    simp [hq] at this
  refine ⟨h.toHome, fun ho' => absurd ho' (by simp [ho]), fun _ => ?_, fun _ hs => by cases hs⟩
  obtain ⟨hnil, -⟩ | ⟨n', m', v', rest', hq', hrest⟩ := h.pending ho hns
  · simp [hq] at hnil
  · rw [hq] at hq'
    obtain ⟨-, rfl⟩ := List.cons.inj hq'
    exact hrest

theorem unspawn (h : l.Framed flowId c held) (hs : l.spawned = true) (hup : l.up = false)
    (hq : l.toTravel = []) : Link.Framed { l with spawned := false } flowId c held :=
  ⟨h.toHome, fun ho => absurd hs (by simp [(h.offered ho).2.2.1]), fun hs => (by cases hs),
    fun _ _ => .inl ⟨hq, .inl hup⟩⟩

/-- Home takes an offered Carrier: its OPEN_OK is the first frame to Travel. -/
theorem attach (h : l.Framed flowId c held) (ho : l.offered = true) (n m v : ℕ) :
    (Link.pushTravel { l with offered := false } [.openOk flowId c n m v]).Framed flowId c
      held' := by
  obtain ⟨h1, h2, h3, -⟩ := h.offered ho
  unfold Link.pushTravel
  split_ifs with hup
  · exact ⟨by simp [h1], fun ho => (by cases ho), fun hs => absurd hs (by simp [h3]),
      fun _ _ => .inr ⟨n, m, v, [], by simp [h2], by simp⟩⟩
  · exact ⟨by simp [h1], fun ho => (by cases ho), fun hs => absurd hs (by simp [h3]),
      fun _ _ => .inl ⟨h2, .inl (by simpa using hup)⟩⟩

/-- Home gives an offered Carrier up. -/
theorem unoffer (h : l.Framed flowId c held) (ho : l.offered = true) (hn : ¬ held') :
    Link.Framed { l with offered := false } flowId c held' := by
  obtain ⟨h1, h2, h3, -⟩ := h.offered ho
  exact ⟨by simp [h1], fun ho => (by cases ho), fun hs => absurd hs (by simp [h3]),
    fun _ _ => .inl ⟨h2, .inr hn⟩⟩

theorem close (h : l.Framed flowId c held) (n m : ℕ) :
    Link.Framed { l with
      up := false, toHome := l.toHome.take n, toTravel := l.toTravel.take m } flowId c held := by
  refine ⟨fun f hf => h.toHome f (List.mem_of_mem_take hf), fun ho => ?_,
    fun hs f hf => h.spawned hs f (List.mem_of_mem_take hf), fun ho hs => ?_⟩
  · obtain ⟨h1, h2, h3, h4⟩ := h.offered ho
    exact ⟨by simp [h1], by simp [h2], h3, h4⟩
  · cases m with
    | zero => exact .inl ⟨rfl, .inl rfl⟩
    | succ m =>
      obtain ⟨hnil, -⟩ | ⟨n', m', v, rest, hq, hrest⟩ := h.pending ho hs
      · exact .inl ⟨by simp [hnil], .inl rfl⟩
      · exact .inr ⟨n', m', v, rest.take m, by simp [hq],
          fun f hf => hrest f (List.mem_of_mem_take hf)⟩

end Link.Framed

/-- What Travel sends, in every one of its moves, stays within the flow and goes to Carriers it
holds. -/
structure Travel.Polite (t : Travel) (r : Travel × Sends) : Prop where
  flowId : r.1.transfer.flowId = t.transfer.flowId
  carriers : r.1.carriers ⊆ t.carriers
  reads : r.1.transfer.localReads = t.transfer.localReads
  sends : ∀ p ∈ r.2, p.1 ∈ t.carriers ∧ ofTravel t.transfer.flowId p.2

theorem mem_sendTo {carriers : List Uuid} {c : Uuid} {frames : List DataFrame}
    {p : Uuid × DataFrame} (h : p ∈ sendTo carriers c frames) : p.1 ∈ carriers ∧ p.2 ∈ frames := by
  unfold sendTo at h
  split_ifs at h with hc
  · obtain ⟨f, hf, rfl⟩ := List.mem_map.mp h
    exact ⟨hc, hf⟩
  · cases h

theorem SendQueue.retransmit_ofTravel {q : SendQueue} {flowId : Uuid} {eof : Bool}
    {f : DataFrame} (hf : f ∈ q.retransmit flowId eof) : ofTravel flowId f := by
  rcases List.mem_append.mp hf with hf | hf
  · obtain ⟨g, -, rfl⟩ := List.mem_map.mp hf
    rfl
  · split_ifs at hf
    · rw [List.mem_singleton.mp hf]
      rfl
    · cases hf

theorem SendQueue.retransmit_ofHome {q : SendQueue} {flowId : Uuid} {eof : Bool}
    {f : DataFrame} (hf : f ∈ q.retransmit flowId eof) : ofHome flowId f := by
  rcases List.mem_append.mp hf with hf | hf
  · obtain ⟨g, -, rfl⟩ := List.mem_map.mp hf
    rfl
  · split_ifs at hf
    · rw [List.mem_singleton.mp hf]
      rfl
    · cases hf

namespace Travel
variable {t : Travel} {r : Travel × Sends}

theorem Quiet.polite (h : t.Quiet r) : t.Polite r := by
  refine ⟨?_, h.carriers_subset, ?_, ?_⟩
  · cases h <;> rfl
  · cases h <;> rfl
  · cases h with
    | ended | rephased | kept => exact fun p hp => by cases hp
    | won winner hw =>
      exact fun p hp => ⟨(mem_sendTo hp).1, SendQueue.retransmit_ofTravel (mem_sendTo hp).2⟩

theorem beginRace_polite {raceId : Uuid} {opens : List Uuid}
    (hs : t.beginRace raceId opens = some r) : t.Polite r := by
  simp only [beginRace] at hs
  split_ifs at hs
  obtain rfl := Option.some.inj hs
  refine ⟨rfl, List.Subset.refl _, rfl, fun p hp => ?_⟩
  cases ha : t.active with
  | none => simp [ha] at hp
  | some c =>
    simp only [ha] at hp
    obtain ⟨h1, h2⟩ := mem_sendTo hp
    rw [List.mem_singleton.mp h2]
    exact ⟨h1, rfl⟩

theorem frame_polite {io : Io} {c : Uuid} {f : DataFrame} (h : t.Ok)
    (hs : t.event (.carrierFrame c f) io = some r) : t.Polite r := by
  have hcase := handleFrame_cases io t.transfer t.carriers t.active c f
  have hhandled : (handleFrame io t.transfer t.carriers t.active c f).transfer.flowId =
        t.transfer.flowId ∧
      (handleFrame io t.transfer t.carriers t.active c f).transfer.localReads =
        t.transfer.localReads ∧
      ∀ p ∈ (handleFrame io t.transfer t.carriers t.active c f).sent,
        p.1 ∈ t.carriers ∧ ofTravel t.transfer.flowId p.2 := by
    generalize handleFrame io t.transfer t.carriers t.active c f = handled at hcase
    cases hcase with
    | wrote | known | finAgain | finished =>
      refine ⟨rfl, rfl, fun p hp => ⟨(mem_sendTo hp).1, ?_⟩⟩
      rw [List.mem_singleton.mp (mem_sendTo hp).2]
      rfl
    | acked | partly | finAcked | raceAnswer | rejected =>
      exact ⟨rfl, rfl, fun p hp => by cases hp⟩
  have hsub := event_carriers_subset h hs
  cases event_cases hs with
  | decided race winner hp hw => exact (endRace_quiet (h.oldActive race hp)).polite
  | failed error hr => exact ⟨hhandled.1, hsub, hhandled.2.1, fun p hp => by cases hp⟩
  | closed race d hp he => cases he
  | handled phase closed hp hr => exact ⟨hhandled.1, hsub, hhandled.2.1, hhandled.2.2⟩

/-- The other events: what the local socket brings, and the end of a Carrier. -/
theorem event_polite {io : Io} {ev : FlowEvent} (h : t.Ok) (hs : t.event ev io = some r)
    (hev : ∀ c f, ev ≠ .carrierFrame c f) :
    r.1.transfer.flowId = t.transfer.flowId ∧
      (∀ b ∈ r.1.transfer.localReads, b ∈ t.transfer.localReads ∨ ev = .localData b) ∧
      ∀ p ∈ r.2, p.1 ∈ t.carriers ∧ ofTravel t.transfer.flowId p.2 := by
  have hactive : ∀ c f, ofTravel t.transfer.flowId f → ∀ p ∈ sendTo t.carriers c [f],
      p.1 ∈ t.carriers ∧ ofTravel t.transfer.flowId p.2 := by
    intro c f hf p hp
    obtain ⟨h1, h2⟩ := mem_sendTo hp
    rw [List.mem_singleton.mp h2]
    exact ⟨h1, hf⟩
  have hhandled : (handleEvent ev io t.transfer t.carriers t.active).transfer.flowId =
        t.transfer.flowId ∧
      (∀ b ∈ (handleEvent ev io t.transfer t.carriers t.active).transfer.localReads,
        b ∈ t.transfer.localReads ∨ ev = .localData b) ∧
      ∀ p ∈ (handleEvent ev io t.transfer t.carriers t.active).sent,
        p.1 ∈ t.carriers ∧ ofTravel t.transfer.flowId p.2 := by
    cases ev with
    | localData bytes =>
      simp only [handleEvent]
      split_ifs
      · exact ⟨rfl, fun b hb => .inl hb, fun p hp => by cases hp⟩
      · refine ⟨rfl, fun b hb => ?_, fun p hp => ?_⟩
        · rcases List.mem_append.mp hb with hb | hb
          · exact .inl hb
          · rw [List.mem_singleton.mp hb]
            exact .inr rfl
        · cases ha : t.active with
          | none => simp [ha] at hp
          | some c =>
            simp only [ha] at hp
            exact hactive c (.data t.transfer.flowId t.transfer.send.sendOffset bytes) rfl p hp
    | localEof =>
      refine ⟨rfl, fun b hb => .inl hb, fun p hp => ?_⟩
      simp only [handleEvent] at hp
      cases ha : t.active with
      | none => simp [ha] at hp
      | some c =>
        simp only [ha] at hp
        exact hactive c (.fin t.transfer.flowId t.transfer.send.sendOffset) rfl p hp
    | localError | carrierClosed => exact ⟨rfl, fun b hb => .inl hb, fun p hp => by cases hp⟩
    | carrierFrame c f => exact absurd rfl (hev c f)
  cases event_cases hs with
  | decided race winner hp hw =>
    cases ev with
    | carrierFrame c f => exact absurd rfl (hev c f)
    | localData | localEof | localError | carrierClosed => cases hw
  | failed error hr => exact ⟨hhandled.1, hhandled.2.1, fun p hp => by cases hp⟩
  | closed race c hp he =>
    subst he
    have hq := (continueRace_quiet (t := t.without c) (h.without_old hp c)).polite
    refine ⟨hq.flowId, fun b hb => .inl ?_, fun p hp => ?_⟩
    · have hreads := hq.reads
      exact hreads ▸ hb
    · obtain ⟨h1, h2⟩ := hq.sends p hp
      exact ⟨List.mem_of_mem_filter h1, h2⟩
  | handled phase closed hp hr => exact hhandled

end Travel

/-- A Carrier whose end Travel has seen is out of its map. -/
theorem Travel.event_closed_notMem {t : Travel} {r : Travel × Sends} {io : Io} {c : Uuid}
    (h : t.Ok) (hs : t.event (.carrierClosed c) io = some r) : c ∉ r.1.carriers := by
  cases event_cases hs with
  | decided race winner hp hw => cases hw
  | failed error hr => cases hr
  | closed race d hp he =>
    obtain rfl := FlowEvent.carrierClosed.inj he
    intro hm
    have := (continueRace_quiet (t := t.without c) (h.without_old hp c)).carriers_subset hm
    simp [Travel.without] at this
  | handled phase closed hp hr => simp [handleEvent]

/-- The Carriers of a flow between its two ends. -/
structure Sys.Framed (s : Sys) : Prop where
  flowId : s.home.flowId = s.travel.transfer.flowId
  links : ∀ c, (s.links c).Framed s.travel.transfer.flowId c (c ∈ s.home.carriers)
  held : ∀ c ∈ s.travel.carriers, (s.links c).spawned = true
  localReads : ∀ b ∈ s.travel.transfer.localReads, b.length ≤ maxDataPayload
  targetReads : ∀ b ∈ s.home.targetReads, b.length ≤ maxDataPayload
  sent : ∀ c, ∀ f ∈ (s.links c).toTravel, f ∈ s.homeSent

namespace Sys
variable {s s' : Sys}

/-- Travel moves: it sends on Carriers it holds. -/
theorem Framed.withTravel (h : s.Framed) {r : Travel × Sends}
    (hid : r.1.transfer.flowId = s.travel.transfer.flowId)
    (hsub : r.1.carriers ⊆ s.travel.carriers)
    (hreads : ∀ b ∈ r.1.transfer.localReads, b.length ≤ maxDataPayload)
    (hsends : ∀ p ∈ r.2, p.1 ∈ s.travel.carriers ∧ ofTravel s.travel.transfer.flowId p.2) :
    (s.withTravel r).Framed := by
  refine ⟨h.flowId.trans hid.symm, fun c => ?_, fun c hc => ?_, hreads, h.targetReads,
    fun c f hf => h.sent c f ?_⟩
  · change ((s.links c).pushHome (r.2.on c)).Framed r.1.transfer.flowId c (c ∈ s.home.carriers)
    rw [hid]
    by_cases hon : r.2.on c = []
    · rw [hon, Link.pushHome_nil]
      exact h.links c
    · have hmem : ∀ f ∈ r.2.on c, (c, f) ∈ r.2 := by
        intro f hf
        obtain ⟨p, hp, rfl⟩ := List.mem_map.mp hf
        obtain ⟨hmem, hpc⟩ := List.mem_filter.mp hp
        obtain rfl : p.1 = c := by simpa using hpc
        exact hmem
      obtain ⟨f, hf⟩ := List.exists_mem_of_ne_nil _ hon
      exact (h.links c).pushHome (h.held c (hsends _ (hmem f hf)).1)
        fun g hg => (hsends _ (hmem g hg)).2
  · simpa [Sys.withTravel] using h.held c (hsub hc)
  · simpa [Sys.withTravel] using hf

theorem Framed.withPolite (h : s.Framed) {r : Travel × Sends} (hr : s.travel.Polite r) :
    (s.withTravel r).Framed :=
  h.withTravel hr.flowId hr.carriers (by rw [hr.reads]; exact h.localReads) hr.sends

/-- Home moves: it sends on a Carrier it holds. -/
theorem Framed.withHome (h : s.Framed) {oc : Option Uuid} {r : Home × List DataFrame}
    (hid : r.1.flowId = s.home.flowId) (hsub : r.1.carriers ⊆ s.home.carriers)
    (hreads : ∀ b ∈ r.1.targetReads, b.length ≤ maxDataPayload)
    (hoc : ∀ c, oc = some c → c ∈ s.home.carriers)
    (hsends : ∀ f ∈ r.2, ofHome s.home.flowId f) : (s.withHome oc r).Framed := by
  refine ⟨hid.trans h.flowId, fun c => ?_, fun c hc => ?_, h.localReads, hreads, fun c f hf => ?_⟩
  · refine @Link.Framed.of_held _ _ _ (c ∈ s.home.carriers) _ ?_ (fun hm => hsub hm)
    dsimp only [Sys.withHome]
    split_ifs with hc
    · exact (h.links c).pushTravel (hoc c hc) fun f hf => h.flowId ▸ hsends f hf
    · exact h.links c
  · dsimp only [Sys.withHome]
    split_ifs <;> simpa using h.held c hc
  · simp only [Sys.withHome] at hf ⊢
    split_ifs at hf
    · rw [Link.pushTravel_toTravel] at hf
      rcases List.mem_append.mp hf with hf | hf
      · exact List.mem_append_left _ (h.sent c f hf)
      · split_ifs at hf
        · exact List.mem_append_right _ hf
        · cases hf
    · exact List.mem_append_left _ (h.sent c f hf)

/-- One Carrier changes for another that is as good. -/
theorem Framed.setLink (h : s.Framed) {c : Uuid} {l : Link}
    (hl : l.Framed s.travel.transfer.flowId c (c ∈ s.home.carriers))
    (hs : c ∈ s.travel.carriers → l.spawned = true)
    (hsub : l.toTravel ⊆ (s.links c).toTravel) : (s.setLink c l).Framed := by
  refine ⟨h.flowId, fun d => ?_, fun d hd => ?_, h.localReads, h.targetReads, fun d f hf => ?_⟩
  · by_cases hdc : d = c
    · subst hdc
      simpa [Sys.setLink] using hl
    · simpa [Sys.setLink, hdc] using h.links d
  · by_cases hdc : d = c
    · subst hdc
      simpa [Sys.setLink] using hs hd
    · simpa [Sys.setLink, hdc] using h.held d hd
  · by_cases hdc : d = c
    · subst hdc
      exact h.sent d f (hsub (by simpa [Sys.setLink] using hf))
    · exact h.sent d f (by simpa [Sys.setLink, hdc] using hf)

theorem framed_start (config : Config) : config.start.Framed :=
  ⟨rfl, fun _ => .fresh, fun _ hc => (by cases hc), fun _ hb => (by cases hb),
    fun _ hb => (by cases hb), fun _ _ hf => (by cases hf)⟩

theorem Framed.travelRace (hw : s.Wired) (h : s.Framed) {count : ℕ} {r : Travel × Sends}
    (hr : s.travel.beginRace s.fresh (opening (s.fresh + 1) count) = some r) :
    Framed { (s.offer (opening (s.fresh + 1) count)).withTravel r with
      fresh := s.fresh + 1 + count } := by
  have hoffer : (s.offer (opening (s.fresh + 1) count)).Framed := by
    refine ⟨h.flowId, fun c => ?_, fun c hc => ?_, h.localReads, h.targetReads, fun c f hf => ?_⟩
    · dsimp only [Sys.offer]
      split_ifs with hc
      · exact .offer (hw.fresh c ((Nat.le_succ _).trans (mem_opening.mp hc).1)).2.2
      · exact h.links c
    · dsimp only [Sys.offer]
      split_ifs with ho
      · exact absurd hc (hw.fresh c ((Nat.le_succ _).trans (mem_opening.mp ho).1)).2.1
      · exact h.held c hc
    · dsimp only [Sys.offer] at hf
      split_ifs at hf
      · cases hf
      · exact h.sent c f hf
  obtain ⟨h1, h2, h3, h4, h5, h6⟩ := hoffer.withPolite (Travel.beginRace_polite hr)
  exact ⟨h1, h2, h3, h4, h5, h6⟩

theorem Framed.travelOpened {c : Uuid} (h : s.Framed) (hs : s.travelOpened c = some s') :
    s'.Framed := by
  obtain ⟨n, m, v, rest, r, hq, hr, rfl⟩ := travelOpened_cases hs
  have hpop : (s.setLink c { s.links c with toTravel := rest, spawned := true }).Framed :=
    h.setLink ((h.links c).opened hq) (fun _ => rfl) (hq ▸ List.subset_cons_self _ _)
  obtain ⟨-, ⟨error, rfl⟩ | ⟨race, send, -, -, -, -, rfl⟩⟩ := Travel.opened_cases hr
  · exact hpop.withPolite (Travel.Quiet.fail _ error).polite
  · have hadd : Framed { s.setLink c { s.links c with toTravel := rest, spawned := true } with
        travel := { s.travel with carriers := c :: s.travel.carriers } } := by
      refine ⟨hpop.flowId, hpop.links, fun d hd => ?_, hpop.localReads, hpop.targetReads, hpop.sent⟩
      rcases List.mem_cons.mp hd with rfl | hd
      · simp [Sys.setLink]
      · exact hpop.held d hd
    refine hadd.withTravel (r := (_, _)) rfl (List.Subset.refl _) hpop.localReads fun p hp => ?_
    rw [List.mem_singleton.mp hp]
    exact ⟨List.mem_cons_self, rfl⟩

theorem Framed.travelFrame {c : Uuid} {io : Io} (hw : s.Wired) (h : s.Framed)
    (hs : s.travelFrame c io = some s') : s'.Framed := by
  obtain ⟨f, rest, r, hsp, hq, hr, rfl⟩ := travelFrame_cases hs
  have hpop : (s.setLink c { s.links c with toTravel := rest }).Framed :=
    h.setLink ((h.links c).popTravel hsp hq) (fun _ => hsp) (hq ▸ List.subset_cons_self _ _)
  exact hpop.withPolite (Travel.frame_polite hw.travel hr)

theorem Framed.event {io : Io} {ev : FlowEvent} {r : Travel × Sends} (hw : s.Wired)
    (h : s.Framed) (hr : s.travel.event ev io = some r) (hev : ∀ c f, ev ≠ .carrierFrame c f)
    (hb : ∀ b, ev = .localData b → b.length ≤ maxDataPayload) : (s.withTravel r).Framed := by
  obtain ⟨h1, h2, h3⟩ := Travel.event_polite hw.travel hr hev
  exact h.withTravel h1 (Travel.event_carriers_subset hw.travel hr)
    (fun b hm => (h2 b hm).elim (h.localReads b) (hb b)) h3

theorem Framed.travelCarrierClosed {c : Uuid} {r : Travel × Sends} (hw : s.Wired) (h : s.Framed)
    (hsp : (s.links c).spawned = true) (hup : (s.links c).up = false)
    (hq : (s.links c).toTravel = []) (hr : s.travel.event (.carrierClosed c) .done = some r) :
    ((s.setLink c { s.links c with spawned := false }).withTravel r).Framed := by
  have hevent : (s.withTravel r).Framed := h.event hw hr (by simp) (by simp)
  have hlink : (s.withTravel r).links c = s.links c := by simp [Sys.withTravel, Link.pushHome, hup]
  have hcomm : (s.setLink c { s.links c with spawned := false }).withTravel r =
      (s.withTravel r).setLink c { s.links c with spawned := false } := by
    simp only [Sys.withTravel, Sys.setLink, Sys.mk.injEq, true_and, and_true]
    funext d
    by_cases hdc : d = c
    · subst hdc
      simp [Link.pushHome, hup]
    · simp [hdc]
  rw [hcomm]
  refine hevent.setLink ?_ (fun hc => absurd hc (Travel.event_closed_notMem hw.travel hr)) ?_
  · have hl := hevent.links c
    rw [hlink] at hl
    exact hl.unspawn hsp hup hq
  · rw [hlink]
    exact List.Subset.refl _

theorem Framed.homeAttach {c : Uuid} {written : Bool} (h : s.Framed)
    (hs : s.homeAttach c written = some s') : s'.Framed := by
  obtain ⟨r, ho, hr, rfl⟩ := homeAttach_cases hs
  have hn : c ∉ s.home.carriers := ((h.links c).offered ho).2.2.2
  simp only [Home.attach] at hr
  split_ifs at hr with hg hw
  · obtain rfl := Option.some.inj hr
    refine ⟨h.flowId, fun d => ?_, fun d hd => ?_, h.localReads, h.targetReads, fun d f hf => ?_⟩
    · dsimp only [Sys.withHome, Sys.setLink]
      by_cases hdc : d = c
      · subst hdc
        rw [if_pos rfl, Function.update_self, ← h.flowId]
        exact (h.flowId ▸ h.links d).attach ho _ _ _
      · rw [if_neg (by simpa using fun hcd : c = d => hdc hcd.symm), Function.update_of_ne hdc]
        exact (h.links d).of_held fun hm => (List.mem_cons.mp hm).resolve_left hdc
    · have hdc : d ≠ c := by
        rintro rfl
        exact absurd (h.held d hd) (by simp [((h.links d).offered ho).2.2.1])
      dsimp only [Sys.withHome, Sys.setLink]
      rw [if_neg (by simpa using fun hcd : c = d => hdc hcd.symm), Function.update_of_ne hdc]
      exact h.held d hd
    · dsimp only [Sys.withHome, Sys.setLink] at hf ⊢
      by_cases hdc : d = c
      · subst hdc
        rw [if_pos rfl, Function.update_self, Link.pushTravel_toTravel] at hf
        rcases List.mem_append.mp hf with hf | hf
        · exact List.mem_append_left _ (h.sent d f hf)
        · split_ifs at hf
          · exact List.mem_append_right _ hf
          · cases hf
      · rw [if_neg (by simpa using fun hcd : c = d => hdc hcd.symm), Function.update_of_ne hdc] at hf
        exact List.mem_append_left _ (h.sent d f hf)
  · obtain rfl := Option.some.inj hr
    refine ⟨h.flowId, fun d => ?_, fun d hd => ?_, h.localReads, h.targetReads, fun d f hf => ?_⟩
    · simp only [Sys.withHome, Home.fail, Link.pushTravel_nil, ite_self, Sys.setLink]
      by_cases hdc : d = c
      · subst hdc
        rw [Function.update_self]
        exact (h.links d).unoffer ho List.not_mem_nil
      · rw [Function.update_of_ne hdc]
        exact (h.links d).of_held fun hm => by cases hm
    · have hdc : d ≠ c := by
        rintro rfl
        exact absurd (h.held d hd) (by simp [((h.links d).offered ho).2.2.1])
      simpa [Sys.withHome, Home.fail, Sys.setLink, hdc] using h.held d hd
    · refine List.mem_append_left _ (h.sent d f ?_)
      by_cases hdc : d = c
      · subst hdc
        simpa [Sys.withHome, Home.fail, Sys.setLink] using hf
      · simpa [Sys.withHome, Home.fail, Sys.setLink, hdc] using hf

theorem Framed.setHome (h : s.Framed) {k : Home} (hid : k.flowId = s.home.flowId)
    (hsub : k.carriers ⊆ s.home.carriers)
    (hreads : ∀ b ∈ k.targetReads, b.length ≤ maxDataPayload) : Framed { s with home := k } :=
  ⟨hid.trans h.flowId, fun c => (h.links c).of_held fun hm => hsub hm, h.held, h.localReads, hreads,
    h.sent⟩

theorem Framed.homeFrame {c : Uuid} {io : Io} (h : s.Framed) (hs : s.homeFrame c io = some s') :
    s'.Framed := by
  obtain ⟨f, rest, r, hq, hc, hr, rfl⟩ := homeFrame_cases hs
  have hpop : (s.setLink c { s.links c with toHome := rest }).Framed :=
    h.setLink ((h.links c).popHome hq) (h.held c) (List.Subset.refl _)
  have hsub := Home.frame_carriers_subset hr
  have hsome : ∀ d, some c = some d → d ∈ s.home.carriers := fun d hd => Option.some.inj hd ▸ hc
  obtain ⟨-, -, hcase⟩ := Home.frame_cases hr
  cases hcase with
  | raceDecided raceId n hf hw =>
    refine hpop.withHome rfl hsub h.targetReads hsome fun g hg => ?_
    rcases List.mem_cons.mp hg with rfl | hg
    · rfl
    · exact SendQueue.retransmit_ofHome hg
  | raceKnown | wrote | known | finAgain | finished | rejected =>
    refine hpop.withHome rfl hsub h.targetReads hsome fun g hg => ?_
    rw [List.mem_singleton.mp hg]
    rfl
  | partly | acked | finAcked | failed =>
    exact hpop.withHome rfl hsub h.targetReads hsome fun g hg => by cases hg

theorem Framed.step {a : Action} (hw : s.Wired) (h : s.Framed) (hs : s.step a = some s') :
    s'.Framed := by
  cases a with
  | travelFinish =>
    obtain ⟨r, hr, rfl⟩ := Option.map_eq_some_iff.mp hs
    exact h.withPolite (Travel.finish_quiet hr).2.polite
  | travelRace =>
    obtain ⟨r, hr, rfl⟩ := Option.map_eq_some_iff.mp hs
    exact h.travelRace hw hr
  | travelSelect =>
    obtain ⟨r, hr, rfl⟩ := Option.map_eq_some_iff.mp hs
    exact h.withPolite (Travel.select_quiet hr).2.polite
  | travelReevaluate =>
    obtain ⟨r, hr, rfl⟩ := Option.map_eq_some_iff.mp hs
    exact h.withPolite (Travel.reevaluate_quiet hr).2.polite
  | travelRecoveryExpired =>
    obtain ⟨r, hr, rfl⟩ := Option.map_eq_some_iff.mp hs
    exact h.withPolite (Travel.recoveryExpired_quiet hr).2.polite
  | travelStop =>
    obtain ⟨r, hr, rfl⟩ := Option.map_eq_some_iff.mp hs
    exact h.withPolite (Travel.stop_quiet hr).2.polite
  | travelOpened => exact h.travelOpened hs
  | travelOpenFailed =>
    obtain ⟨r, hr, rfl⟩ := Option.map_eq_some_iff.mp hs
    exact h.withPolite (hw.travel.openFailed_quiet hr).2.polite
  | travelDeadline =>
    obtain ⟨r, hr, rfl⟩ := Option.map_eq_some_iff.mp hs
    exact h.withPolite (hw.travel.deadline_quiet hr).2.polite
  | travelLocalData bytes =>
    simp only [Sys.step] at hs
    split_ifs at hs with hg
    obtain ⟨r, hr, rfl⟩ := Option.map_eq_some_iff.mp hs
    exact h.event hw hr (by simp) fun b hb => by
      obtain rfl := FlowEvent.localData.inj hb
      exact hg.1.2
  | travelLocalEof | travelLocalError =>
    simp only [Sys.step] at hs
    split_ifs at hs
    obtain ⟨r, hr, rfl⟩ := Option.map_eq_some_iff.mp hs
    exact h.event hw hr (by simp) (by simp)
  | travelFrame => exact h.travelFrame hw hs
  | travelCarrierClosed c =>
    obtain ⟨r, hsp, hup, hq, hr, rfl⟩ := travelCarrierClosed_cases hs
    exact h.travelCarrierClosed hw hsp hup hq hr
  | homeRespawn =>
    obtain ⟨-, -, rfl⟩ := homeRespawn_cases hs
    have := h.setHome (k := { flowId := s.home.flowId, maxUnackedBytes := s.home.maxUnackedBytes })
      rfl (List.nil_subset _) (fun _ hb => by cases hb)
    exact ⟨this.flowId, this.links, this.held, this.localReads, this.targetReads, this.sent⟩
  | homeAttach => exact h.homeAttach hs
  | homeTargetData bytes =>
    simp only [Sys.step] at hs
    split_ifs at hs with hg
    obtain ⟨r, hr, rfl⟩ := Option.map_eq_some_iff.mp hs
    have hoc : ∀ c, s.home.activeCarrier = some c → c ∈ s.home.carriers := hw.home.active
    simp only [Home.targetData] at hr
    split_ifs at hr <;> obtain rfl := Option.some.inj hr
    · exact h.withHome rfl (List.nil_subset _) h.targetReads hoc fun f hf => by cases hf
    · refine h.withHome rfl (List.Subset.refl _) (fun b hb => ?_) hoc fun f hf => ?_
      · rcases List.mem_append.mp hb with hb | hb
        · exact h.targetReads b hb
        · rw [List.mem_singleton.mp hb]
          exact hg.1.2
      · rw [List.mem_singleton.mp hf]
        rfl
  | homeTargetEof =>
    simp only [Sys.step] at hs
    split_ifs at hs
    obtain ⟨r, hr, rfl⟩ := Option.map_eq_some_iff.mp hs
    simp only [Home.targetEnd] at hr
    split_ifs at hr
    obtain rfl := Option.some.inj hr
    refine h.withHome rfl (List.Subset.refl _) h.targetReads hw.home.active fun f hf => ?_
    rw [List.mem_singleton.mp hf]
    rfl
  | homeFrame => exact h.homeFrame hs
  | homeCarrierClosed =>
    obtain ⟨h', -, -, -, hr, rfl⟩ := homeCarrierClosed_cases hs
    simp only [Home.carrierClosed] at hr
    split_ifs at hr <;> obtain rfl := Option.some.inj hr <;>
      exact h.setHome rfl List.filter_sublist.subset h.targetReads
  | homeFinish =>
    obtain ⟨h', hr, rfl⟩ := Option.map_eq_some_iff.mp hs
    simp only [Home.finish] at hr
    split_ifs at hr <;> obtain rfl := Option.some.inj hr <;>
      exact h.setHome rfl (List.nil_subset _) h.targetReads
  | homeStop =>
    obtain ⟨h', hr, rfl⟩ := Option.map_eq_some_iff.mp hs
    simp only [Home.stop] at hr
    split_ifs at hr
    obtain rfl := Option.some.inj hr
    exact h.setHome rfl (List.nil_subset _) h.targetReads
  | close c n m =>
    obtain ⟨-, rfl⟩ := close_cases hs
    exact h.setLink ((h.links c).close n m) (h.held c) (List.take_subset _ _)

theorem framed_of_reachable {config : Config} (h : (machine config).Reachable s) : s.Framed :=
  Machine.ReachableWhere.invariant h (framed_start config)
    fun _ _ _ hr hf _ hs => hf.step (wired_of_reachable hr) hs

end Sys

end FlowSplice.Flow
