import FlowSplice.Flow.Links

/-! Whether both ends mean the same Carrier. Home decides a race when the first RACE frame of it
arrives; Travel follows when the answer does, or gives up waiting and keeps the Carrier it had.
What Travel may still settle on is compared with what Home treats as active. -/
namespace FlowSplice.Flow

/-- The winner that a frame names for a race. -/
def raceAnswer (raceId : Uuid) : DataFrame → Option Uuid
  | .raceAck _ id winner | .raceDuplicate _ id winner => if id = raceId then some winner else none
  | _ => none

/-- The race a frame is about. -/
def raceIdOf : DataFrame → Option Uuid
  | .race _ id _ | .raceAck _ id _ | .raceDuplicate _ id _ => some id
  | _ => none

/-- The Carriers that Travel may still settle on without a further decision of Home. -/
def Sys.choices (s : Sys) : List Uuid :=
  match s.travel.phase with
  | .racing race =>
    (s.home.winnerOf race.raceId).toList ++ (List.range s.fresh).flatMap fun c =>
      (s.links c).toTravel.filterMap (raceAnswer race.raceId)
  | _ => s.travel.active.toList

/-- The condition on a step. A race that runs into its deadline finds Home still on the Carrier
that Travel keeps. Home decides a race only for a Carrier that Travel is not settling against. -/
def Sys.agreeable (s : Sys) : Action → Bool
  | .travelDeadline =>
    s.travel.active.all fun c => s.home.activeCarrier = some c ∨ c ∉ s.home.carriers
  | .homeFrame c _ =>
    match (s.links c).toHome with
    | .race _ raceId _ :: _ =>
      (s.home.winnerOf raceId).isSome || s.choices.all fun w => w = c ∨ w ∉ s.home.carriers
    | _ => true
  | _ => true

/-- No race is in progress, nothing is in flight on an open Carrier, and both ends have noticed
every Carrier that either of them let go. -/
structure Sys.Quiescent (s : Sys) : Prop where
  idle : ∀ race, s.travel.phase ≠ .racing race
  empty : ∀ c, (s.links c).up = true → (s.links c).toHome = [] ∧ (s.links c).toTravel = []
  closed : ∀ c, (s.links c).up = false → c ∉ s.travel.carriers ∧ c ∉ s.home.carriers
  held : ∀ c, c ∈ s.travel.carriers ↔ c ∈ s.home.carriers

/-- Outside a race Travel holds no Carrier but the active one; inside it holds that one and the
candidates. -/
structure Travel.Focused (t : Travel) : Prop where
  idle : (∀ race, t.phase ≠ .racing race) → ∀ c ∈ t.carriers, t.active = some c
  racing : ∀ race, t.phase = .racing race → ∀ c ∈ t.carriers,
    race.oldActive = some c ∨ c ∈ race.candidateIds

namespace Travel
variable {t : Travel} {r : Travel × Sends}

theorem Focused.nil (h : t.carriers = []) : t.Focused :=
  ⟨fun _ c hc => by simp [h] at hc, fun _ _ c hc => by simp [h] at hc⟩

theorem Focused.beginRace {raceId : Uuid} {opens : List Uuid} (h : t.Focused)
    (hs : t.beginRace raceId opens = some r) : r.1.Focused := by
  simp only [Travel.beginRace] at hs
  split_ifs at hs with hg
  obtain rfl := Option.some.inj hs
  refine ⟨fun hn => absurd rfl (hn _), fun race hr c hc => .inl ?_⟩
  obtain rfl := TravelPhase.racing.inj hr
  exact h.idle (by simp [hg.1]) c hc

theorem Focused.endRace {race : Race} (winner : Option Uuid)
    (h : ∀ c ∈ t.carriers, race.oldActive = some c ∨ c ∈ race.candidateIds) :
    (t.endRace race winner).1.Focused := by
  cases winner with
  | some winner =>
    simp only [Travel.endRace]
    split_ifs
    · exact ⟨fun _ c hc => by rw [List.mem_singleton.mp hc], fun _ hr => by cases hr⟩
    · exact .nil rfl
  | none =>
    simp only [Travel.endRace]
    split_ifs
    · refine ⟨fun _ c hc => ?_, fun _ hr => by cases hr⟩
      obtain ⟨hc, hn⟩ := List.mem_filter.mp hc
      exact (h c hc).resolve_right (by simpa using hn)
    · exact .nil rfl

theorem Focused.continueRace {race : Race}
    (h : ∀ c ∈ t.carriers, race.oldActive = some c ∨ c ∈ race.candidateIds) :
    (t.continueRace race).1.Focused := by
  unfold Travel.continueRace
  split_ifs
  · exact .endRace none h
  · refine ⟨fun hn => absurd rfl (hn _), fun race' hr => ?_⟩
    obtain rfl := TravelPhase.racing.inj hr
    exact h

theorem Focused.opened {c n : ℕ} (h : t.Focused) (hs : t.opened c n = some r) : r.1.Focused := by
  obtain ⟨-, ⟨error, rfl⟩ | ⟨race, send, hp, -, -, -, rfl⟩⟩ := opened_cases hs
  · exact .nil rfl
  · refine ⟨fun hn => absurd rfl (hn _), fun race' hr d hd => ?_⟩
    obtain rfl := TravelPhase.racing.inj hr
    rcases List.mem_cons.mp hd with rfl | hd
    · exact .inr List.mem_cons_self
    · exact (h.racing race hp d hd).imp_right (List.mem_cons_of_mem _)

theorem Focused.openFailed {c : Uuid} (h : t.Focused) (hs : t.openFailed c = some r) :
    r.1.Focused := by
  simp only [Travel.openFailed] at hs
  split at hs
  next race hp =>
    split_ifs at hs
    obtain rfl := Option.some.inj hs
    exact .continueRace (h.racing race hp)
  next => cases hs

theorem Focused.deadline (h : t.Focused) (hs : t.deadline = some r) : r.1.Focused := by
  simp only [Travel.deadline] at hs
  split at hs
  next race hp =>
    obtain rfl := Option.some.inj hs
    exact .endRace none (h.racing race hp)
  next => cases hs

theorem Focused.event {ev : FlowEvent} {io : Io} (h : t.Focused) (hs : t.event ev io = some r) :
    r.1.Focused := by
  cases event_cases hs with
  | decided race winner hp hw => exact .endRace (some winner) (h.racing race hp)
  | failed => exact .nil rfl
  | closed race c hp he =>
    subst he
    refine .continueRace fun d hd => ?_
    obtain ⟨hd, hne⟩ := List.mem_filter.mp hd
    exact (h.racing race hp d hd).imp_right fun hm => List.mem_filter.mpr ⟨hm, hne⟩
  | handled phase closed hp hr =>
    by_cases hev : ∃ c, ev = .carrierClosed c
    · obtain ⟨c, rfl⟩ := hev
      obtain ⟨race, -, -, hne, -⟩ | ⟨hp, rfl⟩ := hp
      · exact absurd rfl (hne c)
      · refine ⟨fun _ d hd => ?_, fun _ hr => by cases hr⟩
        obtain ⟨hd, hne⟩ := List.mem_filter.mp hd
        have hact := h.idle (by simp [hp]) d hd
        have hcl : closed = false := by
          simp only [handleEvent, Except.ok.injEq] at hr
          simpa [hact, eq_comm] using hr.symm.trans (by simpa [hact] using hne)
        simpa [hcl] using hact
    · obtain ⟨hcarriers, hclosed⟩ := handleEvent_carriers io t.transfer t.carriers t.active
        fun c hc => hev ⟨c, hc⟩
      obtain rfl : closed = false := by
        cases closed with
        | false => rfl
        | true => exact absurd hr hclosed
      obtain ⟨race, hp, rfl, -⟩ | ⟨hp, rfl⟩ := hp
      · refine ⟨fun hn => absurd rfl (hn _), fun race' hr' d hd => ?_⟩
        obtain rfl := TravelPhase.racing.inj hr'
        exact h.racing race hp d (hcarriers ▸ hd)
      · exact ⟨fun _ d hd => h.idle (by simp [hp]) d (hcarriers ▸ hd), fun _ hr => by cases hr⟩

/-- A move that neither starts a race nor settles one. -/
structure Modest (t : Travel) (r : Travel × Sends) : Prop where
  idle : (∀ race, r.1.phase ≠ .racing race) → ∀ w, r.1.active = some w →
    (∀ race, t.phase ≠ .racing race) ∧ t.active = some w
  racing : ∀ race, r.1.phase = .racing race →
    ∃ race', t.phase = .racing race' ∧ race'.raceId = race.raceId
  sends : ∀ p ∈ r.2, ∀ id, raceIdOf p.2 = some id →
    ∃ race, r.1.phase = .racing race ∧ race.raceId = id

theorem Modest.ended {t' : Travel} (ha : t'.active = none) (hp : ∀ race, t'.phase ≠ .racing race) :
    t.Modest (t', []) :=
  ⟨fun _ w hw => by simp [ha] at hw, fun race hr => absurd hr (hp race), fun _ hp => by cases hp⟩

theorem finish_modest {drained : Bool} (hs : t.finish drained = some r) : t.Modest r := by
  simp only [finish] at hs
  split_ifs at hs <;> obtain rfl := Option.some.inj hs <;> exact .ended rfl (by simp)

theorem stop_modest (hs : t.stop = some r) : t.Modest r := by
  simp only [stop] at hs
  split_ifs at hs
  obtain rfl := Option.some.inj hs
  exact .ended rfl (by simp)

theorem recoveryExpired_modest (hs : t.recoveryExpired = some r) : t.Modest r := by
  simp only [recoveryExpired] at hs
  split_ifs at hs
  obtain rfl := Option.some.inj hs
  exact .ended rfl (by simp)

theorem select_modest (hs : t.select = some r) : t.Modest r := by
  simp only [select] at hs
  split_ifs at hs with hg
  obtain rfl := Option.some.inj hs
  exact ⟨fun _ w hw => ⟨by simp [hg.1], hw⟩, fun _ hr => (by cases hr), fun _ hp => (by cases hp)⟩

theorem reevaluate_modest (hs : t.reevaluate = some r) : t.Modest r := by
  simp only [reevaluate] at hs
  split_ifs at hs with hg
  obtain rfl := Option.some.inj hs
  exact ⟨fun _ w hw => ⟨by simp [hg], hw⟩, fun _ hr => (by cases hr), fun _ hp => (by cases hp)⟩

/-- A race without a winner leaves the Carrier that was active, or none. -/
theorem endRace_none {race : Race}
    (hold : ∀ c, race.oldActive = some c → c ∈ t.carriers → c ∉ race.candidateIds →
      t.active = some c) :
    (t.endRace race none).2 = [] ∧
      (∀ race', (t.endRace race none).1.phase ≠ .racing race') ∧
      ∀ c, (t.endRace race none).1.active = some c → t.active = some c ∧ c ∈ t.carriers := by
  simp only [endRace]
  split_ifs with hany
  · refine ⟨rfl, by simp, fun c hc => ?_⟩
    have ho : race.oldActive = some c := hc
    have hc : c ∈ t.carriers ∧ c ∉ race.candidateIds := by simpa [ho] using hany
    exact ⟨hold c ho hc.1 hc.2, hc.1⟩
  · exact ⟨rfl, by simp, by simp⟩

theorem continueRace_modest {race race' : Race} {t₀ : Travel} (hp : t₀.phase = .racing race')
    (hid : race'.raceId = race.raceId)
    (hold : ∀ c, race.oldActive = some c → c ∈ t.carriers → c ∉ race.candidateIds →
      t.active = some c) : t₀.Modest (t.continueRace race) := by
  unfold continueRace
  split_ifs with hex
  · obtain ⟨h1, h2, h3⟩ := endRace_none hold
    have hnone : t.active = none := by
      simp only [exhausted, Bool.and_eq_true] at hex
      simpa using hex.1.1
    refine ⟨fun _ w hw => ?_, fun race hr => absurd hr (h2 race), fun p hp => by simp [h1] at hp⟩
    simp [hnone] at h3
    exact absurd hw (h3 w)
  · refine ⟨fun hn => absurd rfl (hn race), fun race'' hr => ?_, fun _ hp => by cases hp⟩
    obtain rfl := TravelPhase.racing.inj hr
    exact ⟨race', hp, hid⟩

theorem openFailed_modest {c : Uuid} (h : t.Ok) (hs : t.openFailed c = some r) : t.Modest r := by
  simp only [openFailed] at hs
  split at hs
  next race hp =>
    split_ifs at hs
    obtain rfl := Option.some.inj hs
    exact continueRace_modest hp rfl (h.oldActive race hp)
  next => cases hs

theorem opened_modest {c n : ℕ} (hs : t.opened c n = some r) : t.Modest r := by
  obtain ⟨-, ⟨error, rfl⟩ | ⟨race, send, hp, -, -, -, rfl⟩⟩ := opened_cases hs
  · exact .ended rfl (by simp)
  · refine ⟨fun hn => absurd rfl (hn _), fun race' hr => ?_, fun p hp' id heq => ?_⟩
    · obtain rfl := TravelPhase.racing.inj hr
      exact ⟨race, hp, rfl⟩
    · rw [List.mem_singleton.mp hp'] at heq
      exact ⟨_, rfl, Option.some.inj heq⟩

/-- What `handle_event` sends is about no race. -/
theorem handleEvent_no_race {ev : FlowEvent} {io : Io} {transfer : TransferState}
    {carriers : List Uuid} {active : Option Uuid} {p : Uuid × DataFrame}
    (hp : p ∈ (handleEvent ev io transfer carriers active).sent) : raceIdOf p.2 = none := by
  have hsend : ∀ {c : Uuid} {f : DataFrame}, p ∈ sendTo carriers c [f] → raceIdOf f = none →
      raceIdOf p.2 = none := by
    intro c f hm hne
    rwa [List.mem_singleton.mp (mem_sendTo hm).2]
  cases ev with
  | localData bytes =>
    simp only [handleEvent] at hp
    split_ifs at hp
    · cases hp
    · cases active with
      | none => cases hp
      | some c => exact hsend hp rfl
  | localEof =>
    cases active with
    | none => cases hp
    | some c => exact hsend hp rfl
  | localError | carrierClosed => cases hp
  | carrierFrame c f =>
    have hcase := handleFrame_cases io transfer carriers active c f
    simp only [handleEvent] at hp
    generalize handleFrame io transfer carriers active c f = handled at hcase hp
    cases hcase with
    | wrote | known | finAgain | finished => exact hsend hp rfl
    | acked | partly | finAcked | raceAnswer | rejected => cases hp

/-- An event is modest unless it names the winner of the race in progress. -/
theorem event_modest {ev : FlowEvent} {io : Io} (h : t.Ok) (hs : t.event ev io = some r) :
    t.Modest r ∨ ∃ race winner, t.phase = .racing race ∧ t.raceWinner race ev = some winner ∧
      r = t.endRace race (some winner) := by
  cases event_cases hs with
  | decided race winner hp hw => exact .inr ⟨race, winner, hp, hw, rfl⟩
  | failed => exact .inl (.ended rfl (by simp))
  | closed race c hp he =>
    subst he
    exact .inl (continueRace_modest hp rfl (h.without_old hp c))
  | handled phase closed hp hr =>
    refine .inl ⟨fun hn w hw => ?_, fun race hr' => ?_, fun p hm id heq => by
      simp [handleEvent_no_race hm] at heq⟩
    · have hact : t.active = some w := by
        simp only at hw
        split_ifs at hw
        exact hw
      obtain ⟨race, -, rfl, -⟩ | ⟨hp, rfl⟩ := hp
      · exact absurd rfl (hn race)
      · exact ⟨by simp [hp], hact⟩
    · obtain ⟨race', hp, rfl, -⟩ | ⟨-, rfl⟩ := hp
      · obtain rfl := TravelPhase.racing.inj hr'
        exact ⟨race', hp, rfl⟩
      · cases hr'

end Travel

/-- What Travel may settle on is what Home has active, or is lost to Home. -/
structure Sys.Paired (s : Sys) : Prop where
  focused : s.travel.Focused
  current : ∀ race, s.travel.phase = .racing race → race.raceId < s.fresh
  winners : ∀ p ∈ s.home.raceWinners, p.1 < s.fresh
  races : ∀ c, ∀ f, f ∈ (s.links c).toHome ∨ f ∈ (s.links c).toTravel →
    ∀ id, raceIdOf f = some id → id < s.fresh
  agreed : ∀ w ∈ s.choices, s.home.activeCarrier = some w ∨
    w ∉ s.home.carriers ∧ (s.links w).offered = false

theorem SendQueue.retransmit_no_race {q : SendQueue} {flowId : Uuid} {eof : Bool}
    {f : DataFrame} (hf : f ∈ q.retransmit flowId eof) : raceIdOf f = none := by
  rcases List.mem_append.mp hf with hf | hf
  · obtain ⟨g, -, rfl⟩ := List.mem_map.mp hf
    rfl
  · split_ifs at hf
    · rw [List.mem_singleton.mp hf]
      rfl
    · cases hf

namespace Home
variable {h : Home} {id w : Uuid}

theorem lookup_filter {l : List (Uuid × Uuid)} {p : Uuid → Bool}
    (h : (l.filter (fun x => p x.1)).lookup id = some w) : l.lookup id = some w := by
  induction l with
  | nil => exact h
  | cons x l ih =>
    obtain ⟨k, v⟩ := x
    rw [List.lookup_cons]
    by_cases hp : p k
    · rw [List.filter_cons_of_pos (by simpa using hp), List.lookup_cons] at h
      split at h
      · exact h
      · exact ih h
    · rw [List.filter_cons_of_neg (by simpa using hp)] at h
      split
      next heq =>
        obtain rfl : id = k := by simpa using heq
        obtain ⟨l₁, l₂, heq, -⟩ := List.lookup_eq_some_iff.mp h
        have hm : (id, w) ∈ l.filter (fun x => p x.1) := heq ▸ by simp
        exact absurd (List.mem_filter.mp hm).2 hp
      next => exact ih h

/-- Home remembers a new winner and may forget old ones. -/
theorem remember_winnerOf {raceId winner : Uuid}
    (hw : (h.remember raceId winner).winnerOf id = some w) :
    id = raceId ∧ w = winner ∨ h.winnerOf id = some w := by
  simp only [remember, winnerOf] at hw
  have hw := lookup_filter (p := fun k => k ∉ (h.raceOrder ++ [raceId]).take
    ((h.raceOrder ++ [raceId]).length - 32)) hw
  rw [List.lookup_cons] at hw
  split at hw
  next heq => exact .inl ⟨by simpa using heq, (Option.some.inj hw).symm⟩
  next => exact .inr (lookup_filter (p := fun k => k ≠ raceId) hw)

theorem remember_raceWinners {raceId winner : Uuid} {p : Uuid × Uuid}
    (hp : p ∈ (h.remember raceId winner).raceWinners) :
    p = (raceId, winner) ∨ p ∈ h.raceWinners := by
  simp only [remember] at hp
  rcases List.mem_cons.mp (List.mem_of_mem_filter hp) with rfl | hp
  · exact .inl rfl
  · exact .inr (List.mem_of_mem_filter hp)

theorem winnerOf_mem (hw : h.winnerOf id = some w) : (id, w) ∈ h.raceWinners := by
  obtain ⟨l₁, l₂, heq, -⟩ := List.lookup_eq_some_iff.mp hw
  exact heq ▸ by simp

end Home

theorem raceAnswer_raceIdOf {f : DataFrame} {id w : Uuid} (h : raceAnswer id f = some w) :
    raceIdOf f = some id := by
  unfold raceAnswer at h
  split at h <;> simp_all [raceIdOf]

namespace Sys
variable {s s' : Sys}

theorem mem_choices_idle (hp : ∀ race, s.travel.phase ≠ .racing race) {w : Uuid} :
    w ∈ s.choices ↔ s.travel.active = some w := by
  unfold choices
  split
  next race hr => exact absurd hr (hp race)
  next => simp

theorem mem_choices_racing {race : Race} (hp : s.travel.phase = .racing race) {w : Uuid} :
    w ∈ s.choices ↔ s.home.winnerOf race.raceId = some w ∨
      ∃ c < s.fresh, ∃ f ∈ (s.links c).toTravel, raceAnswer race.raceId f = some w := by
  simp [choices, hp]

/-- No choice arises for a race that has just begun. -/
theorem Paired.choices_fresh (h : s.Paired) (race : Race)
    (hp : s'.travel.phase = .racing race) (hid : race.raceId = s.fresh)
    (hh : s'.home = s.home)
    (hq : ∀ c, ∀ f ∈ (s'.links c).toTravel, f ∈ (s.links c).toTravel) (w : Uuid) :
    w ∉ s'.choices := by
  rw [mem_choices_racing hp, hid, hh]
  rintro (hw | ⟨c, -, f, hf, hw⟩)
  · exact lt_irrefl _ (h.winners _ (Home.winnerOf_mem hw))
  · exact lt_irrefl _ (h.races c f (.inr (hq c f hf)) _ (raceAnswer_raceIdOf hw))

/-- A modest move of Travel, after it took a frame or none, adds no choice. -/
theorem choices_subset {s₀ : Sys} {r : Travel × Sends} (hm : s.travel.Modest r)
    (hh : s₀.home = s.home) (hfresh : s₀.fresh = s.fresh)
    (hq : ∀ c, ∀ f ∈ (s₀.links c).toTravel, f ∈ (s.links c).toTravel) :
    (s₀.withTravel r).choices ⊆ s.choices := by
  intro w hw
  by_cases hp : ∃ race, r.1.phase = .racing race
  · obtain ⟨race, hp⟩ := hp
    obtain ⟨race', hp', hid⟩ := hm.racing race hp
    rw [mem_choices_racing hp] at hw
    rw [mem_choices_racing hp', hid]
    rcases hw with hw | ⟨c, hc, f, hf, hw⟩
    · exact .inl (hh ▸ hw)
    · exact .inr ⟨c, hfresh ▸ hc, f, hq c f (by simpa [withTravel] using hf), hw⟩
  · have hp : ∀ race, r.1.phase ≠ .racing race := fun race hr => hp ⟨race, hr⟩
    rw [mem_choices_idle (s := s₀.withTravel r) hp] at hw
    obtain ⟨hp', hact⟩ := hm.idle hp w hw
    rwa [mem_choices_idle hp']

theorem Paired.of_travel (h : s.Paired) (hfocused : s'.travel.Focused)
    (hcurrent : ∀ race, s'.travel.phase = .racing race → race.raceId < s'.fresh)
    (hfresh : s.fresh ≤ s'.fresh) (hh : s'.home = s.home)
    (hraces : ∀ c, ∀ f, f ∈ (s'.links c).toHome ∨ f ∈ (s'.links c).toTravel →
      (f ∈ (s.links c).toHome ∨ f ∈ (s.links c).toTravel) ∨
        ∀ id, raceIdOf f = some id → id < s'.fresh)
    (hagreed : ∀ w ∈ s'.choices, s'.home.activeCarrier = some w ∨
      w ∉ s'.home.carriers ∧ (s'.links w).offered = false) : s'.Paired :=
  ⟨hfocused, hcurrent, fun p hp => (h.winners p (hh ▸ hp)).trans_le hfresh,
    fun c f hf id hid => (hraces c f hf).elim (fun hf => (h.races c f hf id hid).trans_le hfresh)
      fun hf => hf id hid, hagreed⟩

/-- A frame that Travel sends was in flight before, or is one of those it sends now. -/
theorem mem_withTravel {s₀ : Sys} {r : Travel × Sends} {c : Uuid} {f : DataFrame}
    (hf : f ∈ ((s₀.withTravel r).links c).toHome) :
    f ∈ (s₀.links c).toHome ∨ (c, f) ∈ r.2 := by
  simp only [withTravel, Link.pushHome_toHome] at hf
  rcases List.mem_append.mp hf with hf | hf
  · exact .inl hf
  · split_ifs at hf
    · obtain ⟨p, hp, rfl⟩ := List.mem_map.mp hf
      obtain ⟨hm, hpc⟩ := List.mem_filter.mp hp
      obtain rfl : p.1 = c := by simpa using hpc
      exact .inr hm
    · cases hf

/-- The part of the state that a move of Travel starts from: a frame may have been taken. -/
structure Taken (s s₀ : Sys) : Prop where
  home : s₀.home = s.home
  fresh : s₀.fresh = s.fresh
  toHome : ∀ c, ∀ f ∈ (s₀.links c).toHome, f ∈ (s.links c).toHome
  toTravel : ∀ c, ∀ f ∈ (s₀.links c).toTravel, f ∈ (s.links c).toTravel
  offered : ∀ c, (s.links c).offered = false → (s₀.links c).offered = false

theorem Taken.refl : s.Taken s := ⟨rfl, rfl, fun _ _ h => h, fun _ _ h => h, fun _ h => h⟩

theorem Taken.setLink {c : Uuid} {l : Link} (hh : ∀ f ∈ l.toHome, f ∈ (s.links c).toHome)
    (ht : ∀ f ∈ l.toTravel, f ∈ (s.links c).toTravel)
    (ho : (s.links c).offered = false → l.offered = false) :
    s.Taken (s.setLink c l) := by
  refine ⟨rfl, rfl, fun d f hf => ?_, fun d f hf => ?_, fun d hd => ?_⟩ <;>
    by_cases hdc : d = c
  · subst hdc
    exact hh f (by simpa [Sys.setLink] using hf)
  · simpa [Sys.setLink, hdc] using hf
  · subst hdc
    exact ht f (by simpa [Sys.setLink] using hf)
  · simpa [Sys.setLink, hdc] using hf
  · subst hdc
    simpa [Sys.setLink] using ho hd
  · simpa [Sys.setLink, hdc] using hd

theorem Paired.withTravel {s₀ : Sys} {r : Travel × Sends} (h : s.Paired) (ht : s.Taken s₀)
    (hm : s.travel.Modest r) (hfocused : r.1.Focused) : (s₀.withTravel r).Paired := by
  have hcurrent : ∀ race, r.1.phase = .racing race → race.raceId < s₀.fresh := by
    intro race hr
    obtain ⟨race', hp', hid⟩ := hm.racing race hr
    rw [ht.fresh, ← hid]
    exact h.current race' hp'
  refine h.of_travel hfocused hcurrent ht.fresh.ge ht.home (fun c f hf => ?_) fun w hw => ?_
  · rcases hf with hf | hf
    · rcases mem_withTravel hf with hf | hf
      · exact .inl (.inl (ht.toHome c f hf))
      · refine .inr fun id hid => ?_
        obtain ⟨race, hr, rfl⟩ := hm.sends _ hf id hid
        exact hcurrent race hr
    · exact .inl (.inr (ht.toTravel c f (by simpa [Sys.withTravel] using hf)))
  · have hagreed := h.agreed w (choices_subset hm ht.home ht.fresh ht.toTravel hw)
    simpa [Sys.withTravel, ht.home] using hagreed.imp_right fun hn => ⟨hn.1, ht.offered w hn.2⟩

/-- A race ends: what Travel then has active is agreed on. -/
theorem Paired.endRace {s₀ : Sys} {race : Race} (h : s.Paired) (ht : s.Taken s₀)
    (hp : s.travel.phase = .racing race) (winner : Option Uuid)
    (hno : ∀ p ∈ (s.travel.endRace race winner).2, raceIdOf p.2 = none)
    (hagreed : ∀ w, (s.travel.endRace race winner).1.active = some w →
      s.home.activeCarrier = some w ∨ w ∉ s.home.carriers ∧ (s.links w).offered = false) :
    (s₀.withTravel (s.travel.endRace race winner)).Paired := by
  have hidle : ∀ race', (s.travel.endRace race winner).1.phase ≠ .racing race' := by
    cases winner <;> simp only [Travel.endRace] <;> split_ifs <;> simp
  refine h.of_travel (.endRace winner (h.focused.racing race hp))
    (fun race' hr => absurd hr (hidle race')) ht.fresh.ge ht.home (fun c f hf => ?_) fun w hw => ?_
  · rcases hf with hf | hf
    · rcases mem_withTravel hf with hf | hf
      · exact .inl (.inl (ht.toHome c f hf))
      · exact .inr fun id hid => by simp [hno _ hf] at hid
    · exact .inl (.inr (ht.toTravel c f (by simpa [Sys.withTravel] using hf)))
  · rw [mem_choices_idle (s := s₀.withTravel _) hidle] at hw
    simpa [Sys.withTravel, ht.home] using
      (hagreed w hw).imp_right fun hn => ⟨hn.1, ht.offered w hn.2⟩

theorem Paired.travelFrame {c : Uuid} {io : Io} (hw : s.Wired) (h : s.Paired)
    (hs : s.travelFrame c io = some s') : s'.Paired := by
  obtain ⟨f, rest, r, -, hq, hr, rfl⟩ := travelFrame_cases hs
  have ht : s.Taken (s.setLink c { s.links c with toTravel := rest }) :=
    .setLink (fun _ hf => hf) (fun g hg => hq ▸ List.mem_cons_of_mem _ hg) id
  obtain hm | ⟨race, winner, hp, hwin, rfl⟩ := Travel.event_modest hw.travel hr
  · exact h.withTravel ht hm (h.focused.event hr)
  · have hanswer : raceAnswer race.raceId f = some winner := by
      unfold Travel.raceWinner at hwin
      split at hwin <;> simp_all [raceAnswer]
    have hc : c < s.fresh := by
      by_contra hc
      simp [(hw.fresh c (not_lt.mp hc)).1] at hq
    have hmem : winner ∈ s.choices :=
      (mem_choices_racing hp).mpr (.inr ⟨c, hc, f, hq ▸ List.mem_cons_self, hanswer⟩)
    refine h.endRace ht hp (some winner) (fun p hp => ?_) fun w hact => ?_
    · simp only [Travel.endRace] at hp
      split_ifs at hp
      · exact SendQueue.retransmit_no_race (mem_sendTo hp).2
      · cases hp
    · simp only [Travel.endRace] at hact
      split_ifs at hact
      obtain rfl := Option.some.inj hact
      exact h.agreed _ hmem

/-- A Carrier that Travel holds is not on its way to Home. -/
theorem Framed.not_offered (hf : s.Framed) {c : Uuid} (hc : c ∈ s.travel.carriers) :
    (s.links c).offered = false := by
  by_contra ho
  have := ((hf.links c).offered (by simpa using ho)).2.2.1
  simp [hf.held c hc] at this

theorem Paired.travelDeadline {r : Travel × Sends} (hw : s.Wired) (hf : s.Framed) (h : s.Paired)
    (hg : s.agreeable .travelDeadline = true) (hr : s.travel.deadline = some r) :
    (s.withTravel r).Paired := by
  simp only [Travel.deadline] at hr
  split at hr
  next race hp =>
    obtain rfl := Option.some.inj hr
    obtain ⟨h1, -, h3⟩ := Travel.endRace_none (hw.travel.oldActive race hp)
    refine h.endRace .refl hp none (fun p hp => by simp [h1] at hp) fun w hact => ?_
    obtain ⟨ha, hc⟩ := h3 w hact
    have hg : s.home.activeCarrier = some w ∨ w ∉ s.home.carriers := by
      simpa [agreeable, ha] using hg
    exact hg.imp_right fun hn => ⟨hn, hf.not_offered hc⟩
  next => cases hr

theorem Paired.travelRace {count : ℕ} {r : Travel × Sends} (h : s.Paired)
    (hr : s.travel.beginRace s.fresh (opening (s.fresh + 1) count) = some r) :
    Paired { (s.offer (opening (s.fresh + 1) count)).withTravel r with
      fresh := s.fresh + 1 + count } := by
  have hfocused := h.focused.beginRace hr
  have hle : s.fresh ≤ s.fresh + 1 + count := Nat.le_add_right_of_le (Nat.le_succ _)
  have hlt : s.fresh < s.fresh + 1 + count := 
    Nat.lt_of_lt_of_le (Nat.lt_succ_self _) (Nat.le_add_right _ _)
  have hoffer : ∀ c f, (f ∈ ((s.offer (opening (s.fresh + 1) count)).links c).toHome →
      f ∈ (s.links c).toHome) ∧ (f ∈ ((s.offer (opening (s.fresh + 1) count)).links c).toTravel →
      f ∈ (s.links c).toTravel) := by
    intro c f
    dsimp only [Sys.offer]
    split_ifs
    · exact ⟨fun hf => (by cases hf), fun hf => (by cases hf)⟩
    · exact ⟨id, id⟩
  obtain ⟨-, sent, rfl, hnone, hsome⟩ := beginRace_eq hr
  have hsent : ∀ p ∈ sent, ∀ id, raceIdOf p.2 = some id → id = s.fresh := by
    intro p hp id hid
    cases ha : s.travel.active with
    | none => simp [hnone ha] at hp
    | some c =>
      rw [hsome c ha] at hp
      rw [List.mem_singleton.mp (mem_sendTo hp).2] at hid
      exact (Option.some.inj hid).symm
  refine h.of_travel hfocused (fun race hp => ?_) hle rfl (fun c f hf => ?_) fun w hw => ?_
  · obtain rfl := TravelPhase.racing.inj hp
    exact hlt
  · rcases hf with hf | hf
    · rcases mem_withTravel hf with hf | hf
      · exact .inl (.inl ((hoffer c f).1 hf))
      · exact .inr fun id hid => (hsent _ hf id hid).symm ▸ hlt
    · exact .inl (.inr ((hoffer c f).2 (by simpa [Sys.withTravel] using hf)))
  · refine absurd hw (h.choices_fresh
      ⟨s.fresh, s.travel.active, [], opening (s.fresh + 1) count⟩ ?_ rfl ?_ ?_ w)
    · rfl
    · rfl
    · exact fun c f hf => (hoffer c f).2 (by simpa [Sys.withTravel] using hf)

/-- A move of Home adds no choice but the Carrier it decides for. -/
theorem choices_of_home {P : Uuid → Prop} {w : Uuid} (hw : w ∈ s'.choices)
    (htravel : s'.travel = s.travel) (hfresh : s'.fresh = s.fresh)
    (hwinner : ∀ id w, s'.home.winnerOf id = some w → s.home.winnerOf id = some w ∨ P w)
    (hsent : ∀ c, ∀ f ∈ (s'.links c).toTravel, f ∈ (s.links c).toTravel ∨
      ∀ id w, raceAnswer id f = some w → s.home.winnerOf id = some w ∨ P w) :
    w ∈ s.choices ∨ P w := by
  by_cases hp : ∃ race, s.travel.phase = .racing race
  · obtain ⟨race, hp⟩ := hp
    rw [mem_choices_racing (htravel ▸ hp)] at hw
    rw [mem_choices_racing hp]
    rcases hw with hw | ⟨c, hc, f, hf, hw⟩
    · exact (hwinner _ w hw).imp_left .inl
    · rcases hsent c f hf with hf | hf
      · exact .inl (.inr ⟨c, hfresh ▸ hc, f, hf, hw⟩)
      · exact (hf _ w hw).imp_left .inl
  · have hp : ∀ race, s.travel.phase ≠ .racing race := fun race hr => hp ⟨race, hr⟩
    rw [mem_choices_idle (htravel ▸ hp), htravel] at hw
    exact .inl ((mem_choices_idle hp).mpr hw)

/-- What Travel may settle on has reached Home. -/
theorem Paired.not_offered (hw : s.Wired) (hf : s.Framed) (h : s.Paired) {w : Uuid}
    (hm : w ∈ s.choices) : (s.links w).offered = false := by
  rcases h.agreed w hm with ha | ha
  · by_contra ho
    exact ((hf.links w).offered (by simpa using ho)).2.2.2 (hw.home.active w ha)
  · exact ha.2

/-- Home moves without deciding a race. -/
theorem Paired.of_home (hw : s.Wired) (hf : s.Framed) (h : s.Paired)
    (htravel : s'.travel = s.travel) (hfresh : s'.fresh = s.fresh)
    (hoffered : ∀ c, (s.links c).offered = false → (s'.links c).offered = false)
    (hcarriers : ∀ w ∈ s'.home.carriers, w ∈ s.home.carriers ∨ (s.links w).offered = true)
    (hactive : ∀ w, s.home.activeCarrier = some w →
      s'.home.activeCarrier = some w ∨ w ∉ s'.home.carriers)
    (hwinners : s'.home.raceWinners = s.home.raceWinners ∨ s'.home.raceWinners = [])
    (htoHome : ∀ c, ∀ f ∈ (s'.links c).toHome, f ∈ (s.links c).toHome)
    (htoTravel : ∀ c, ∀ f ∈ (s'.links c).toTravel, f ∈ (s.links c).toTravel ∨
      ∀ id, raceIdOf f = some id → ∃ w, s.home.winnerOf id = some w ∧ raceAnswer id f = some w) :
    s'.Paired := by
  refine ⟨htravel ▸ h.focused, fun race hp => ?_, fun p hp => ?_, fun c f hq id hid => ?_,
    fun w hm => ?_⟩
  · rw [hfresh]
    exact h.current race (htravel ▸ hp)
  · rw [hfresh]
    rcases hwinners with heq | heq
    · exact h.winners p (heq ▸ hp)
    · simp [heq] at hp
  · rw [hfresh]
    rcases hq with hq | hq
    · exact h.races c f (.inl (htoHome c f hq)) id hid
    · rcases htoTravel c f hq with hq | hq
      · exact h.races c f (.inr hq) id hid
      · obtain ⟨w, hwin, -⟩ := hq id hid
        exact h.winners _ (Home.winnerOf_mem hwin)
  · have hm : w ∈ s.choices := by
      refine (choices_of_home (P := fun _ => False) hm htravel hfresh (fun id w hwin => .inl ?_)
        (fun c f hq => (htoTravel c f hq).imp_right fun hnew id w ha => .inl ?_)).resolve_right id
      · rcases hwinners with heq | heq
        · rwa [Home.winnerOf, heq] at hwin
        · simp [Home.winnerOf, heq] at hwin
      · obtain ⟨w', hwin, ha'⟩ := hnew id (raceAnswer_raceIdOf ha)
        rwa [Option.some.inj (ha.symm.trans ha')]
    have ho := h.not_offered hw hf hm
    rcases h.agreed w hm with ha | ha
    · exact (hactive w ha).imp_right fun hn => ⟨hn, hoffered w ho⟩
    · refine .inr ⟨fun hc => ?_, hoffered w ho⟩
      rcases hcarriers w hc with hc | hc
      · exact ha.1 hc
      · simp [ho] at hc

theorem mem_withHome {s₀ : Sys} {oc : Option Uuid} {r : Home × List DataFrame} {c : Uuid}
    {f : DataFrame} (hf : f ∈ ((s₀.withHome oc r).links c).toTravel) :
    f ∈ (s₀.links c).toTravel ∨ f ∈ r.2 := by
  dsimp only [withHome] at hf
  split_ifs at hf
  · rw [Link.pushTravel_toTravel] at hf
    refine (List.mem_append.mp hf).imp_right fun hf => ?_
    split_ifs at hf
    · exact hf
    · cases hf
  · exact .inl hf

@[simp] theorem withHome_toHome {s₀ : Sys} {oc : Option Uuid} {r : Home × List DataFrame}
    {c : Uuid} : ((s₀.withHome oc r).links c).toHome = (s₀.links c).toHome := by
  dsimp only [withHome]
  split_ifs <;> simp

@[simp] theorem withHome_offered {s₀ : Sys} {oc : Option Uuid} {r : Home × List DataFrame}
    {c : Uuid} : ((s₀.withHome oc r).links c).offered = (s₀.links c).offered := by
  dsimp only [withHome]
  split_ifs <;> simp

/-- Home takes what is on a Carrier and answers on one. -/
theorem Paired.withHome {s₀ : Sys} {oc : Option Uuid} {r : Home × List DataFrame} (hw : s.Wired)
    (hf : s.Framed) (h : s.Paired) (ht : s.Taken s₀) (htravel : s₀.travel = s.travel)
    (hcarriers : ∀ w ∈ r.1.carriers, w ∈ s.home.carriers ∨ (s.links w).offered = true)
    (hactive : ∀ w, s.home.activeCarrier = some w →
      r.1.activeCarrier = some w ∨ w ∉ r.1.carriers)
    (hwinners : r.1.raceWinners = s.home.raceWinners)
    (hsent : ∀ f ∈ r.2, ∀ id, raceIdOf f = some id →
      ∃ w, s.home.winnerOf id = some w ∧ raceAnswer id f = some w) :
    (s₀.withHome oc r).Paired :=
  h.of_home hw hf htravel ht.fresh (fun c hc => by simpa using ht.offered c hc) hcarriers hactive
    (.inl hwinners) (fun c f hm => ht.toHome c f (by simpa using hm))
    fun c f hm => (mem_withHome hm).imp (ht.toTravel c f) (hsent f)

/-- The new state of Home, on its own. -/
theorem Paired.setHome (hw : s.Wired) (hf : s.Framed) (h : s.Paired) {k : Home}
    (hcarriers : k.carriers ⊆ s.home.carriers)
    (hactive : ∀ w, s.home.activeCarrier = some w → k.activeCarrier = some w ∨ w ∉ k.carriers)
    (hwinners : k.raceWinners = s.home.raceWinners ∨ k.raceWinners = []) :
    Paired { s with home := k } :=
  h.of_home hw hf rfl rfl (fun _ hc => hc) (fun _ hc => .inl (hcarriers hc)) hactive hwinners
    (fun _ _ hm => hm) fun _ _ hm => .inl hm

theorem Paired.homeAttach {c : Uuid} {written : Bool} (hw : s.Wired) (hf : s.Framed)
    (h : s.Paired) (hs : s.homeAttach c written = some s') : s'.Paired := by
  obtain ⟨r, ho, hr, rfl⟩ := homeAttach_cases hs
  have ht : s.Taken (s.setLink c { s.links c with offered := false }) :=
    .setLink (fun _ hf => hf) (fun _ hf => hf) fun _ => rfl
  simp only [Home.attach] at hr
  split_ifs at hr <;> obtain rfl := Option.some.inj hr
  · exact h.withHome hw hf ht rfl (fun _ hd => .inl hd) (fun _ hd => .inl hd) rfl
      fun _ hg => by cases hg
  · refine h.withHome hw hf ht rfl (fun d hd => ?_) (fun _ hd => .inl hd) rfl fun g hg id hid => ?_
    · rcases List.mem_cons.mp hd with rfl | hd
      · exact .inr ho
      · exact .inl hd
    · rw [List.mem_singleton.mp hg] at hid
      cases hid
  · exact h.withHome hw hf ht rfl (fun _ hd => by cases hd) (fun _ _ => .inr List.not_mem_nil) rfl
      fun _ hg => by cases hg

/-- Home decides a race that none of Travel's choices stands against. -/
theorem Paired.raceDecided {c raceId : Uuid} {n : ℕ} {rest : List DataFrame} (hw : s.Wired)
    (hf : s.Framed) (h : s.Paired)
    (hq : (s.links c).toHome = .race s.home.flowId raceId n :: rest)
    (hchoices : ∀ w ∈ s.choices, w = c ∨ w ∉ s.home.carriers) :
    ((s.setLink c { s.links c with toHome := rest }).withHome (some c)
      ({ s.home.remember raceId c with activeCarrier := some c },
        .raceAck s.home.flowId raceId c ::
          s.home.send.retransmit s.home.flowId s.home.targetEof)).Paired := by
  have ht : s.Taken (s.setLink c { s.links c with toHome := rest }) :=
    .setLink (fun g hg => hq ▸ List.mem_cons_of_mem _ hg) (fun _ hf => hf) id
  have hlt : raceId < s.fresh := h.races c _ (.inl (hq ▸ List.mem_cons_self)) _ rfl
  refine ⟨h.focused, h.current, fun p hp => ?_, fun d f hm id hid => ?_, fun w hm => ?_⟩
  · rcases Home.remember_raceWinners hp with rfl | hp
    · exact hlt
    · exact h.winners p hp
  · rcases hm with hm | hm
    · exact h.races d f (.inl (ht.toHome d f (by simpa using hm))) id hid
    · rcases mem_withHome hm with hm | hm
      · exact h.races d f (.inr (ht.toTravel d f hm)) id hid
      · rcases List.mem_cons.mp hm with rfl | hm
        · exact Option.some.inj hid ▸ hlt
        · simp [SendQueue.retransmit_no_race hm] at hid
  · have hm := choices_of_home (s := s) (P := fun w => w = c) hm rfl rfl (fun id w hwin => ?_)
      fun d f hm => ?_
    · by_cases hwc : w = c
      · exact .inl (congrArg some hwc.symm)
      · have hm := hm.resolve_right hwc
        have hn := (hchoices w hm).resolve_left hwc
        exact .inr ⟨hn, by simpa using ht.offered w (h.not_offered hw hf hm)⟩
    · exact (Home.remember_winnerOf hwin).symm.imp_right And.right
    · refine (mem_withHome hm).imp (ht.toTravel d f) fun hm id w ha => .inr ?_
      rcases List.mem_cons.mp hm with rfl | hm
      · simp only [raceAnswer] at ha
        split_ifs at ha
        exact (Option.some.inj ha).symm
      · have hid := raceAnswer_raceIdOf ha
        simp [SendQueue.retransmit_no_race hm] at hid

theorem Paired.homeFrame {c : Uuid} {io : Io} (hw : s.Wired) (hf : s.Framed) (h : s.Paired)
    (hg : s.agreeable (.homeFrame c io) = true) (hs : s.homeFrame c io = some s') :
    s'.Paired := by
  obtain ⟨f, rest, r, hq, hc, hr, rfl⟩ := homeFrame_cases hs
  have ht : s.Taken (s.setLink c { s.links c with toHome := rest }) :=
    .setLink (fun g hg => hq ▸ List.mem_cons_of_mem _ hg) (fun _ hf => hf) id
  obtain ⟨-, -, hcase⟩ := Home.frame_cases hr
  cases hcase with
  | raceKnown raceId n winner hf' hwin =>
    refine h.withHome hw hf ht rfl (fun _ hd => .inl hd) (fun _ hd => .inl hd) rfl
      fun g hg id hid => ?_
    rw [List.mem_singleton.mp hg] at hid ⊢
    obtain rfl := Option.some.inj hid
    exact ⟨winner, hwin, by simp [raceAnswer]⟩
  | raceDecided raceId n hf' hwin =>
    subst hf'
    refine h.raceDecided hw hf hq ?_
    simpa [agreeable, hq, hwin] using hg
  | wrote | known | finAgain | finished | rejected =>
    refine h.withHome hw hf ht rfl (fun _ hd => .inl hd) (fun _ hd => .inl hd) rfl
      fun g hg id hid => ?_
    rw [List.mem_singleton.mp hg] at hid
    cases hid
  | acked | finAcked =>
    exact h.withHome hw hf ht rfl (fun _ hd => .inl hd) (fun _ hd => .inl hd) rfl
      fun _ hg => by cases hg
  | partly | failed =>
    exact h.withHome hw hf ht rfl (fun _ hd => by cases hd) (fun _ _ => .inr List.not_mem_nil) rfl
      fun _ hg => by cases hg

/-- What happens at the local socket decides no race. -/
theorem Paired.localEvent {ev : FlowEvent} {io : Io} {r : Travel × Sends} (hw : s.Wired)
    (h : s.Paired) (hev : ∀ c f, ev ≠ .carrierFrame c f) (hr : s.travel.event ev io = some r)
    {s₀ : Sys} (ht : s.Taken s₀) : (s₀.withTravel r).Paired := by
  obtain hm | ⟨race, winner, -, hwin, -⟩ := Travel.event_modest hw.travel hr
  · exact h.withTravel ht hm (h.focused.event hr)
  · cases ev with
    | carrierFrame c f => exact absurd rfl (hev c f)
    | localData | localEof | localError | carrierClosed => cases hwin

theorem Paired.step {a : Action} (hw : s.Wired) (hf : s.Framed) (h : s.Paired)
    (hg : s.agreeable a = true) (hs : s.step a = some s') : s'.Paired := by
  cases a with
  | travelFinish =>
    obtain ⟨r, hr, rfl⟩ := Option.map_eq_some_iff.mp hs
    refine h.withTravel .refl (Travel.finish_modest hr) (.nil ?_)
    simp only [Travel.finish] at hr
    split_ifs at hr <;> obtain rfl := Option.some.inj hr <;> rfl
  | travelRace =>
    obtain ⟨r, hr, rfl⟩ := Option.map_eq_some_iff.mp hs
    exact h.travelRace hr
  | travelSelect =>
    obtain ⟨r, hr, rfl⟩ := Option.map_eq_some_iff.mp hs
    refine h.withTravel .refl (Travel.select_modest hr) ?_
    simp only [Travel.select] at hr
    split_ifs at hr with hg
    obtain rfl := Option.some.inj hr
    exact ⟨fun _ => h.focused.idle (by simp [hg.1]), fun _ hr => by cases hr⟩
  | travelReevaluate =>
    obtain ⟨r, hr, rfl⟩ := Option.map_eq_some_iff.mp hs
    refine h.withTravel .refl (Travel.reevaluate_modest hr) ?_
    simp only [Travel.reevaluate] at hr
    split_ifs at hr with hg
    obtain rfl := Option.some.inj hr
    exact ⟨fun _ => h.focused.idle (by simp [hg]), fun _ hr => by cases hr⟩
  | travelRecoveryExpired =>
    obtain ⟨r, hr, rfl⟩ := Option.map_eq_some_iff.mp hs
    refine h.withTravel .refl (Travel.recoveryExpired_modest hr) (.nil ?_)
    simp only [Travel.recoveryExpired] at hr
    split_ifs at hr
    obtain rfl := Option.some.inj hr
    rfl
  | travelStop =>
    obtain ⟨r, hr, rfl⟩ := Option.map_eq_some_iff.mp hs
    refine h.withTravel .refl (Travel.stop_modest hr) (.nil ?_)
    simp only [Travel.stop] at hr
    split_ifs at hr
    obtain rfl := Option.some.inj hr
    rfl
  | travelOpened c =>
    obtain ⟨n, m, v, rest, r, hq, hr, rfl⟩ := travelOpened_cases hs
    exact h.withTravel
      (.setLink (fun _ hf => hf) (fun g hg => hq ▸ List.mem_cons_of_mem _ hg) id)
      (Travel.opened_modest hr) (h.focused.opened hr)
  | travelOpenFailed =>
    obtain ⟨r, hr, rfl⟩ := Option.map_eq_some_iff.mp hs
    exact h.withTravel .refl (Travel.openFailed_modest hw.travel hr) (h.focused.openFailed hr)
  | travelDeadline =>
    obtain ⟨r, hr, rfl⟩ := Option.map_eq_some_iff.mp hs
    exact h.travelDeadline hw hf hg hr
  | travelLocalData =>
    simp only [Sys.step] at hs
    split_ifs at hs
    obtain ⟨r, hr, rfl⟩ := Option.map_eq_some_iff.mp hs
    exact h.localEvent hw (by simp) hr .refl
  | travelLocalEof | travelLocalError =>
    simp only [Sys.step] at hs
    split_ifs at hs
    obtain ⟨r, hr, rfl⟩ := Option.map_eq_some_iff.mp hs
    exact h.localEvent hw (by simp) hr .refl
  | travelFrame => exact h.travelFrame hw hs
  | travelCarrierClosed c =>
    obtain ⟨r, -, -, -, hr, rfl⟩ := travelCarrierClosed_cases hs
    exact h.localEvent hw (by simp) hr (.setLink (fun _ hf => hf) (fun _ hf => hf) id)
  | homeRespawn =>
    obtain ⟨-, -, rfl⟩ := homeRespawn_cases hs
    exact h.of_home hw hf rfl rfl (fun _ hc => hc) (fun _ hc => by cases hc)
      (fun _ _ => .inr List.not_mem_nil) (.inr rfl) (fun _ _ hm => hm) fun _ _ hm => .inl hm
  | homeAttach => exact h.homeAttach hw hf hs
  | homeTargetData =>
    simp only [Sys.step] at hs
    split_ifs at hs
    obtain ⟨r, hr, rfl⟩ := Option.map_eq_some_iff.mp hs
    simp only [Home.targetData] at hr
    split_ifs at hr <;> obtain rfl := Option.some.inj hr
    · exact h.withHome hw hf .refl rfl (fun _ hd => by cases hd)
        (fun _ _ => .inr List.not_mem_nil) rfl fun _ hg => by cases hg
    · refine h.withHome hw hf .refl rfl (fun _ hd => .inl hd) (fun _ hd => .inl hd) rfl
        fun g hg id hid => ?_
      rw [List.mem_singleton.mp hg] at hid
      cases hid
  | homeTargetEof =>
    simp only [Sys.step] at hs
    split_ifs at hs
    obtain ⟨r, hr, rfl⟩ := Option.map_eq_some_iff.mp hs
    simp only [Home.targetEnd] at hr
    split_ifs at hr
    obtain rfl := Option.some.inj hr
    refine h.withHome hw hf .refl rfl (fun _ hd => .inl hd) (fun _ hd => .inl hd) rfl
      fun g hg id hid => ?_
    rw [List.mem_singleton.mp hg] at hid
    cases hid
  | homeFrame => exact h.homeFrame hw hf hg hs
  | homeCarrierClosed c =>
    obtain ⟨k, -, -, -, hk, rfl⟩ := homeCarrierClosed_cases hs
    simp only [Home.carrierClosed] at hk
    split_ifs at hk with hrun hact <;> obtain rfl := Option.some.inj hk
    · refine h.setHome hw hf List.filter_sublist.subset (fun w hd => .inr ?_) (.inl rfl)
      simp [Option.some.inj (hact.symm.trans hd)]
    · exact h.setHome hw hf List.filter_sublist.subset (fun _ hd => .inl hd) (.inl rfl)
  | homeFinish =>
    obtain ⟨k, hk, rfl⟩ := Option.map_eq_some_iff.mp hs
    simp only [Home.finish] at hk
    split_ifs at hk <;> obtain rfl := Option.some.inj hk <;>
      exact h.setHome hw hf (List.nil_subset _) (fun _ _ => .inr List.not_mem_nil) (.inl rfl)
  | homeStop =>
    obtain ⟨k, hk, rfl⟩ := Option.map_eq_some_iff.mp hs
    simp only [Home.stop] at hk
    split_ifs at hk
    obtain rfl := Option.some.inj hk
    exact h.setHome hw hf (List.nil_subset _) (fun _ _ => .inr List.not_mem_nil) (.inl rfl)
  | close c n m =>
    obtain ⟨-, rfl⟩ := close_cases hs
    have ht : s.Taken (s.setLink c { s.links c with
        up := false
        toHome := (s.links c).toHome.take n
        toTravel := (s.links c).toTravel.take m }) :=
      .setLink (fun _ hf => List.mem_of_mem_take hf) (fun _ hf => List.mem_of_mem_take hf) id
    exact h.of_home hw hf rfl rfl ht.offered (fun _ hd => .inl hd) (fun _ hd => .inl hd) (.inl rfl)
      ht.toHome fun d f hm => .inl (ht.toTravel d f hm)

theorem paired_start (config : Config) : config.start.Paired := by
  refine ⟨.nil rfl, ?_, ?_, ?_, ?_⟩
  · intro _ hr
    cases hr
  · intro _ hp
    cases hp
  · rintro _ _ (hf | hf)
    · cases hf
    · cases hf
  · intro _ hw
    cases hw

theorem paired_of_reachable {config : Config}
    (h : (machine config).ReachableWhere (fun s a => s.agreeable a = true) s) : s.Paired :=
  Machine.ReachableWhere.invariant h (paired_start config) fun _ _ _ hr hp hg hs =>
    hp.step (wired_of_reachable hr.reachable) (framed_of_reachable hr.reachable) hg hs

/-- As long as no race is given up on that Home may still decide, or has decided, against what
Travel keeps, both ends have the same Carrier active whenever the flow comes to rest. -/
theorem same_active_of_agreeable {config : Config}
    (h : (machine config).ReachableWhere (fun s a => s.agreeable a = true) s)
    (hq : s.Quiescent) (c : Uuid) :
    s.travel.active = some c ↔ s.home.activeCarrier = some c := by
  have hp := paired_of_reachable h
  have hw := wired_of_reachable h.reachable
  constructor
  · intro ha
    have hc := (hq.held c).mp (hw.travel.active c ha)
    exact (hp.agreed c ((mem_choices_idle hq.idle).mpr ha)).resolve_right fun hn => hn.1 hc
  · intro ha
    exact hp.focused.idle hq.idle c ((hq.held c).mpr (hw.home.active c ha))

/-- Whether a flow is at rest, as far as the Carriers go that it has drawn. -/
def atRest (s : Sys) : Bool :=
  (match s.travel.phase with
    | .racing _ => false
    | _ => true) &&
  (List.range s.fresh).all fun c =>
    let l := s.links c
    (if l.up then l.toHome.isEmpty && l.toTravel.isEmpty
      else decide (c ∉ s.travel.carriers) && decide (c ∉ s.home.carriers)) &&
    decide (c ∈ s.travel.carriers ↔ c ∈ s.home.carriers)

theorem quiescent_of_atRest (hw : s.Wired) (h : s.atRest = true) : s.Quiescent := by
  simp only [atRest, Bool.and_eq_true, List.all_eq_true, List.mem_range] at h
  obtain ⟨hidle, hbelow⟩ := h
  have hcase : ∀ c, ((s.links c).up = true → (s.links c).toHome = [] ∧ (s.links c).toTravel = []) ∧
      ((s.links c).up = false → c ∉ s.travel.carriers ∧ c ∉ s.home.carriers) ∧
      (c ∈ s.travel.carriers ↔ c ∈ s.home.carriers) := by
    intro c
    by_cases hc : c < s.fresh
    · obtain ⟨hl, hheld⟩ := hbelow c hc
      refine ⟨fun hup => ?_, fun hup => ?_, of_decide_eq_true hheld⟩
      · simpa [hup] using hl
      · simpa [hup] using hl
    · obtain ⟨hl, ht, hh⟩ := hw.fresh c (not_lt.mp hc)
      exact ⟨fun hup => by simp [hl] at hup, fun _ => ⟨ht, hh⟩, iff_of_false ht hh⟩
  refine ⟨fun race hp => ?_, fun c => (hcase c).1, fun c => (hcase c).2.1, fun c => (hcase c).2.2⟩
  simp [hp] at hidle

/-- A first race, and a second one that Home decides for the new Carrier. -/
theorem same_active_handover :
    ∃ s, (machine ⟨7, 1000, 1000⟩).execWhere (fun s a => s.agreeable a = true)
      [.travelRace 1, .homeAttach 1 true, .travelOpened 1, .homeFrame 1 .done,
        .travelFrame 1 .done, .travelReevaluate, .travelRace 1, .homeAttach 3 true,
        .travelOpened 3, .homeFrame 3 .done, .travelFrame 3 .done, .close 1 0 0,
        .homeCarrierClosed 1] = some s ∧
    s.travel.active = some 3 ∧ (s.travel.active = some 3 ↔ s.home.activeCarrier = some 3) := by
  have hrun : ((machine ⟨7, 1000, 1000⟩).execWhere (fun s a => s.agreeable a = true)
      [.travelRace 1, .homeAttach 1 true, .travelOpened 1, .homeFrame 1 .done,
        .travelFrame 1 .done, .travelReevaluate, .travelRace 1, .homeAttach 3 true,
        .travelOpened 3, .homeFrame 3 .done, .travelFrame 3 .done, .close 1 0 0,
        .homeCarrierClosed 1]).map (fun s => (s.travel.active, s.atRest)) =
      some (some 3, true) := by
    decide
  obtain ⟨s, hs, heq⟩ := Option.map_eq_some_iff.mp hrun
  obtain ⟨hactive, hrest⟩ := Prod.mk.inj heq
  have hreach := Machine.reachableWhere_of_execWhere hs
  have hquiet := quiescent_of_atRest (wired_of_reachable hreach.reachable) hrest
  exact ⟨s, hs, hactive, same_active_of_agreeable hreach hquiet 3⟩

/-- Home decides a race for the new Carrier. Travel runs into the deadline before it hears of it,
keeps the old Carrier and closes the new one. -/
def decidedTooLate : List Action :=
  [.travelRace 1, .homeAttach 1 true, .travelOpened 1, .homeFrame 1 .done, .travelFrame 1 .done,
    .travelReevaluate, .travelRace 1, .homeAttach 3 true, .travelOpened 3, .homeFrame 3 .done,
    .travelDeadline, .close 3 0 0, .homeCarrierClosed 3, .homeFrame 1 .done, .travelFrame 1 .done]

/-- Travel stays on a Carrier that Home does not treat as active. -/
theorem not_same_active_of_reachable :
    (∃ s, (machine ⟨7, 1000, 1000⟩).exec decidedTooLate = some s ∧ s.past = [] ∧ s.Quiescent ∧
      s.travel.active = some 1 ∧ s.home.activeCarrier = none) ∧
    ¬ ∀ s, (machine ⟨7, 1000, 1000⟩).Reachable s → s.past = [] → s.Quiescent →
      ∀ c, s.travel.active = some c ↔ s.home.activeCarrier = some c := by
  have hrun : ((machine ⟨7, 1000, 1000⟩).exec decidedTooLate).map (fun s =>
      (s.past, s.atRest, s.travel.active, s.home.activeCarrier)) =
        some ([], true, some 1, none) := by
    decide
  obtain ⟨s, hs, heq⟩ := Option.map_eq_some_iff.mp hrun
  simp only [Prod.mk.injEq] at heq
  obtain ⟨hpast, hrest, htravel, hhome⟩ := heq
  have hreach := Machine.reachable_of_exec hs
  have hquiet := quiescent_of_atRest (wired_of_reachable hreach) hrest
  refine ⟨⟨s, hs, hpast, hquiet, htravel, hhome⟩, fun h => ?_⟩
  have hagree := (h s hreach hpast hquiet 1).mp htravel
  simp [hhome] at hagree

end Sys

end FlowSplice.Flow
