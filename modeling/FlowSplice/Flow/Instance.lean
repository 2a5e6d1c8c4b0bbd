import FlowSplice.Lib.TransferEnds
import FlowSplice.Flow.Delivery
import FlowSplice.Flow.Links

/-! A flow and the Home instances that serve it one after the other. An instance that ended is
replaced by one that starts from nothing, and all that Travel has to tell them apart is what was
acknowledged before. -/
namespace FlowSplice.Flow
open Transfer (Inv)

/-- At most one of two instances has written to its target. -/
def Home.Exclusive (h k : Home) : Prop :=
  h.targetWriter.written = [] ∨ k.targetWriter.written = []

/-- All that reached the local socket comes from one target, and what reached a target is the
beginning of the local stream. No two targets got any of it. -/
structure Sys.Unspliced (s : Sys) : Prop where
  source : ∃ h ∈ s.past ++ [s.home],
    s.travel.transfer.localWriter.written <+: h.targetReads.flatten
  targets : ∀ h ∈ s.past ++ [s.home],
    h.targetWriter.written <+: s.travel.transfer.localReads.flatten
  single : (s.past ++ [s.home]).Pairwise Home.Exclusive

def isData : DataFrame → Bool
  | .data .. => true
  | _ => false

/-- The condition on a step. When an instance is replaced, Travel has been told of an
acknowledgement, or has ended, or neither socket has been written to and no data is left on its
way to Travel. -/
def Sys.replaceable (s : Sys) : Action → Bool
  | .homeRespawn _ =>
    !s.travel.running || decide (0 < s.travel.transfer.send.sendAcked) ||
      (s.home.targetWriter.written.isEmpty && s.travel.transfer.localWriter.written.isEmpty &&
        (List.range s.fresh).all fun c => !(s.links c).toTravel.any isData)
  | _ => true

/-- The steps of Home. -/
def Action.atHome : Action → Bool
  | .homeRespawn _ | .homeAttach .. | .homeTargetData _ | .homeTargetEof | .homeFrame ..
  | .homeCarrierClosed _ | .homeFinish _ | .homeStop _ => true
  | _ => false

namespace Sys
variable {s s' : Sys} {b : Home}

/-- The flow with another instance at the far end. -/
def facing (s : Sys) (b : Home) : Sys := { s with home := b }

/-- Travel and the Carriers do not look at the instance. -/
theorem facing_step {a : Action} (ha : a.atHome = false) (hs : s.step a = some s') :
    (s.facing b).step a = some (s'.facing b) := by
  cases a with
  | homeRespawn | homeAttach | homeTargetData | homeTargetEof | homeFrame | homeCarrierClosed
  | homeFinish | homeStop => cases ha
  | travelFinish | travelRace | travelSelect | travelReevaluate | travelRecoveryExpired
  | travelStop | travelOpenFailed | travelDeadline =>
    obtain ⟨r, hr, rfl⟩ := Option.map_eq_some_iff.mp hs
    exact Option.map_eq_some_iff.mpr ⟨r, hr, rfl⟩
  | travelLocalData =>
    simp only [step] at hs
    split_ifs at hs with hg
    obtain ⟨r, hr, rfl⟩ := Option.map_eq_some_iff.mp hs
    exact (if_pos hg).trans (Option.map_eq_some_iff.mpr ⟨r, hr, rfl⟩)
  | travelLocalEof | travelLocalError =>
    simp only [step] at hs
    split_ifs at hs with hg
    obtain ⟨r, hr, rfl⟩ := Option.map_eq_some_iff.mp hs
    exact (if_neg hg).trans (Option.map_eq_some_iff.mpr ⟨r, hr, rfl⟩)
  | travelOpened c =>
    obtain ⟨n, m, v, rest, r, hq, hr, rfl⟩ := travelOpened_cases hs
    simp only [step, travelOpened, facing, hq]
    exact (if_pos ⟨trivial, trivial⟩).trans (Option.map_eq_some_iff.mpr ⟨r, hr, rfl⟩)
  | travelFrame c io =>
    obtain ⟨f, rest, r, hsp, hq, hr, rfl⟩ := travelFrame_cases hs
    simp only [step, travelFrame, facing, hsp, hq]
    exact Option.map_eq_some_iff.mpr ⟨r, hr, rfl⟩
  | travelCarrierClosed c =>
    obtain ⟨r, hsp, hup, hq, hr, rfl⟩ := travelCarrierClosed_cases hs
    exact (if_pos ⟨hsp, by simp [facing, hup], hq⟩).trans
      (Option.map_eq_some_iff.mpr ⟨r, hr, rfl⟩)
  | close c n m =>
    obtain ⟨hup, rfl⟩ := close_cases hs
    exact if_pos hup

theorem home_eq_of_step {a : Action} (ha : a.atHome = false) (hs : s.step a = some s') :
    s'.home = s.home := by
  have hfacing : s.step a = some (s'.facing s.home) := facing_step (b := s.home) ha hs
  have heq : s' = s'.facing s.home := Option.some.inj (hs.symm.trans hfacing)
  rw [heq]
  rfl

/-- The Carriers of the instance lie idle: Travel has taken none of them, and can be told nothing
but that the instance starts from nothing. -/
def Apart (s : Sys) : Prop :=
  ∀ c ∈ s.home.carriers, c ∉ s.travel.carriers ∧ (s.links c).toHome = [] ∧
    ∀ id d n m v, .openOk id d n m v ∈ (s.links c).toTravel → n = 0

theorem Apart.withTravel {t : Sys} {r : Travel × Sends} (h : s.Apart) (hh : t.home = s.home)
    (htoHome : ∀ c ∈ s.home.carriers, (t.links c).toHome = (s.links c).toHome)
    (htoTravel : ∀ c ∈ s.home.carriers, (t.links c).toTravel ⊆ (s.links c).toTravel)
    (hcarriers : ∀ c ∈ r.1.carriers, c ∈ s.travel.carriers ∨ c ∉ s.home.carriers)
    (hsends : ∀ p ∈ r.2, p.1 ∈ s.travel.carriers ∨ p.1 ∉ s.home.carriers) :
    (t.withTravel r).Apart := by
  intro c hc
  have hc : c ∈ s.home.carriers := hh ▸ hc
  obtain ⟨h1, h2, h3⟩ := h c hc
  refine ⟨fun hm => (hcarriers c hm).elim h1 fun hn => hn hc, ?_, fun id d n m v hm => ?_⟩
  · have hon : r.2.on c = [] := by
      rw [Sends.on, List.map_eq_nil_iff, List.filter_eq_nil_iff]
      intro p hp hpc
      obtain rfl : p.1 = c := by simpa using hpc
      exact (hsends p hp).elim h1 fun hn => hn hc
    simp only [Sys.withTravel, hon, Link.pushHome_nil]
    exact (htoHome c hc).trans h2
  · exact h3 id d n m v (htoTravel c hc (by simpa [Sys.withTravel] using hm))

theorem Apart.polite {r : Travel × Sends} (h : s.Apart) (hr : s.travel.Polite r) :
    (s.withTravel r).Apart :=
  h.withTravel rfl (fun _ _ => rfl) (fun _ _ => List.Subset.refl _)
    (fun _ hc => .inl (hr.carriers hc)) fun p hp => .inl (hr.sends p hp).1

/-- A step of Travel, or of a Carrier, leaves the Carriers of an instance alone that Travel is
not going to take. -/
theorem Apart.step {a : Action} (hw : s.Wired) (h : s.Apart)
    (hacked : s.travel.running = true → 0 < s.travel.transfer.send.sendAcked)
    (ha : a.atHome = false) (hs : s.step a = some s') :
    s'.Apart ∧ (s'.travel.running = true → s.travel.running = true) := by
  cases a with
  | homeRespawn | homeAttach | homeTargetData | homeTargetEof | homeFrame | homeCarrierClosed
  | homeFinish | homeStop => cases ha
  | travelFinish =>
    obtain ⟨r, hr, rfl⟩ := Option.map_eq_some_iff.mp hs
    exact ⟨h.polite (Travel.finish_quiet hr).2.polite, fun _ => (Travel.finish_quiet hr).1⟩
  | travelRace count =>
    obtain ⟨r, hr, rfl⟩ := Option.map_eq_some_iff.mp hs
    have hpolite := Travel.beginRace_polite hr
    obtain ⟨hp, sent, rfl, -⟩ := beginRace_eq hr
    have hold : ∀ c ∈ s.home.carriers, c ∉ opening (s.fresh + 1) count := fun c hc hm =>
      (hw.fresh c ((Nat.le_succ _).trans (mem_opening.mp hm).1)).2.2 hc
    have happart := h.withTravel (t := s.offer (opening (s.fresh + 1) count)) rfl
      (fun c hc => by simp only [offer, if_neg (hold c hc)])
      (fun c hc => by simp only [offer, if_neg (hold c hc), List.Subset.refl])
      (fun _ hc => .inl (hpolite.carriers hc)) fun p hp => .inl (hpolite.sends p hp).1
    exact ⟨happart, fun _ => by simp [Travel.running, hp]⟩
  | travelSelect =>
    obtain ⟨r, hr, rfl⟩ := Option.map_eq_some_iff.mp hs
    exact ⟨h.polite (Travel.select_quiet hr).2.polite, fun _ => (Travel.select_quiet hr).1⟩
  | travelReevaluate =>
    obtain ⟨r, hr, rfl⟩ := Option.map_eq_some_iff.mp hs
    exact ⟨h.polite (Travel.reevaluate_quiet hr).2.polite, fun _ => (Travel.reevaluate_quiet hr).1⟩
  | travelRecoveryExpired =>
    obtain ⟨r, hr, rfl⟩ := Option.map_eq_some_iff.mp hs
    exact ⟨h.polite (Travel.recoveryExpired_quiet hr).2.polite,
      fun _ => (Travel.recoveryExpired_quiet hr).1⟩
  | travelStop =>
    obtain ⟨r, hr, rfl⟩ := Option.map_eq_some_iff.mp hs
    exact ⟨h.polite (Travel.stop_quiet hr).2.polite, fun _ => (Travel.stop_quiet hr).1⟩
  | travelOpened c =>
    obtain ⟨n, m, v, rest, r, hq, hr, rfl⟩ := travelOpened_cases hs
    obtain ⟨hrun, hcase⟩ := Travel.opened_cases hr
    refine ⟨?_, fun _ => hrun⟩
    have htoHome : ∀ d ∈ s.home.carriers,
        ((s.setLink c { s.links c with toTravel := rest, spawned := true }).links d).toHome =
          (s.links d).toHome := by
      intro d _
      by_cases hdc : d = c
      · subst hdc
        simp [setLink]
      · simp [setLink, hdc]
    have htoTravel : ∀ d ∈ s.home.carriers,
        ((s.setLink c { s.links c with toTravel := rest, spawned := true }).links d).toTravel ⊆
          (s.links d).toTravel := by
      intro d _
      by_cases hdc : d = c
      · subst hdc
        simp [setLink, hq]
      · simp [setLink, hdc]
    obtain ⟨error, rfl⟩ | ⟨race, send, -, -, hle, -, rfl⟩ := hcase
    · exact h.withTravel rfl htoHome htoTravel (fun _ hd => by cases hd) fun _ hp => by cases hp
    · have hn : c ∉ s.home.carriers := by
        intro hc
        have h0 := (h c hc).2.2 _ _ _ _ _ (hq ▸ List.mem_cons_self)
        exact absurd (hle.trans_eq h0) (Nat.not_le.mpr (hacked hrun))
      refine h.withTravel rfl htoHome htoTravel (fun d hd => ?_) fun p hp => ?_
      · rcases List.mem_cons.mp hd with rfl | hd
        · exact .inr hn
        · exact .inl hd
      · rw [List.mem_singleton.mp hp]
        exact .inr hn
  | travelOpenFailed =>
    obtain ⟨r, hr, rfl⟩ := Option.map_eq_some_iff.mp hs
    exact ⟨h.polite (hw.travel.openFailed_quiet hr).2.polite,
      fun _ => (hw.travel.openFailed_quiet hr).1⟩
  | travelDeadline =>
    obtain ⟨r, hr, rfl⟩ := Option.map_eq_some_iff.mp hs
    exact ⟨h.polite (hw.travel.deadline_quiet hr).2.polite,
      fun _ => (hw.travel.deadline_quiet hr).1⟩
  | travelLocalData | travelLocalEof | travelLocalError =>
    simp only [Sys.step] at hs
    split_ifs at hs
    obtain ⟨r, hr, rfl⟩ := Option.map_eq_some_iff.mp hs
    obtain ⟨-, -, hsends⟩ := Travel.event_polite hw.travel hr (by simp)
    refine ⟨h.withTravel rfl (fun _ _ => rfl) (fun _ _ => List.Subset.refl _) (fun _ hc => .inl ?_)
      fun p hp => .inl (hsends p hp).1, fun _ => Travel.event_running hr⟩
    exact Travel.event_carriers_subset hw.travel hr hc
  | travelFrame c io =>
    obtain ⟨f, rest, r, -, hq, hr, rfl⟩ := travelFrame_cases hs
    have hpolite := Travel.frame_polite hw.travel hr
    refine ⟨h.withTravel rfl (fun d _ => ?_) (fun d _ => ?_)
      (fun _ hc => .inl (hpolite.carriers hc)) fun p hp => .inl (hpolite.sends p hp).1,
      fun _ => Travel.event_running hr⟩
    · by_cases hdc : d = c
      · subst hdc
        simp [setLink]
      · simp [setLink, hdc]
    · by_cases hdc : d = c
      · subst hdc
        simp [setLink, hq]
      · simp [setLink, hdc]
  | travelCarrierClosed c =>
    obtain ⟨r, -, -, -, hr, rfl⟩ := travelCarrierClosed_cases hs
    obtain ⟨-, -, hsends⟩ := Travel.event_polite hw.travel hr (by simp)
    have hsub := Travel.event_carriers_subset hw.travel hr
    refine ⟨h.withTravel rfl (fun d _ => ?_) (fun d _ => ?_) (fun _ hc => .inl (hsub hc))
      fun p hp => .inl (hsends p hp).1, fun _ => Travel.event_running hr⟩ <;>
      by_cases hdc : d = c
    · subst hdc
      simp [setLink]
    · simp [setLink, hdc]
    · subst hdc
      simp [setLink]
    · simp [setLink, hdc]
  | close c n m =>
    obtain ⟨-, rfl⟩ := close_cases hs
    refine ⟨fun d hd => ?_, id⟩
    obtain ⟨h1, h2, h3⟩ := h d hd
    by_cases hdc : d = c
    · subst hdc
      refine ⟨h1, by simp [setLink, h2], fun id e k l v hm => h3 id e k l v ?_⟩
      exact List.mem_of_mem_take (by simpa [setLink] using hm)
    · exact ⟨h1, by simpa [setLink, hdc] using h2, by simpa [setLink, hdc] using h3⟩

/-- The flow stays with an instance `b` that has ended. The one in its place has got nothing of
the local stream, and never will. -/
structure Sealed (s : Sys) (b : Home) : Prop where
  mem : b ∈ s.past
  others : ∀ k ∈ s.past, k.targetWriter.written <+: b.targetWriter.written
  single : s.past.Pairwise Home.Exclusive
  wired : (s.facing b).Wired
  upload : Inv (s.facing b).upload.endless
  download : Inv (s.facing b).download.endless
  acked : s.travel.running = true → 0 < s.travel.transfer.send.sendAcked
  unwritten : s.home.targetWriter.written = []
  receiveOffset : s.home.receiveOffset = 0
  inactive : s.home.activeCarrier = none
  apart : s.Apart

/-- The flow is served by its current instance. None before it was written to. -/
structure Bound (s : Sys) : Prop where
  past : ∀ h ∈ s.past, h.targetWriter.written = []
  upload : Inv s.upload.endless
  download : Inv s.download.endless

theorem Sealed.travel_step {a : Action} (hw : s.Wired) (h : s.Sealed b) (ha : a.atHome = false)
    (hs : s.step a = some s') : s'.Sealed b := by
  have hr : ∀ c, a ≠ .homeRespawn c := by
    rintro c rfl
    cases ha
  have hpast := past_eq_of_step hs hr
  have hfacing := facing_step (b := b) ha hs
  have hup := upload_step h.wired hfacing hr
  obtain ⟨hapart, hrun⟩ := h.apart.step hw h.acked ha hs
  have hhome : s'.home = s.home := home_eq_of_step ha hs
  refine ⟨hpast ▸ h.mem, hpast ▸ h.others, hpast ▸ h.single, h.wired.step hfacing,
    h.upload.steps hup.endless, h.download.steps (download_step h.wired hfacing hr).endless,
    fun hr' => (h.acked (hrun hr')).trans_le hup.acked_le, ?_, ?_, ?_, hapart⟩
  · rw [hhome, h.unwritten]
  · rw [hhome, h.receiveOffset]
  · rw [hhome, h.inactive]

/-- The instance in the place of the sealed one moves. -/
theorem Sealed.of_home (hw : s'.Wired) (h : s.Sealed b) (htravel : s'.travel = s.travel)
    (hpast : ∃ l, s'.past = s.past ++ l ∧ ∀ k ∈ l, k.targetWriter.written = [])
    (htoHome : ∀ c, (s'.links c).toHome = (s.links c).toHome)
    (htoTravel : ∀ c, ∀ f ∈ (s'.links c).toTravel, f ∈ (s.links c).toTravel ∨
      ∃ id d m v, f = .openOk id d 0 m v)
    (hfresh : s'.fresh = s.fresh)
    (hunwritten : s'.home.targetWriter.written = []) (hoffset : s'.home.receiveOffset = 0)
    (hinactive : s'.home.activeCarrier = none) (hapart : s'.Apart) : s'.Sealed b := by
  obtain ⟨l, hl, hnil⟩ := hpast
  refine ⟨hl ▸ List.mem_append_left _ h.mem, fun k hk => ?_, ?_, ?_, ?_, ?_, fun hr => ?_,
    hunwritten, hoffset, hinactive, hapart⟩
  · rcases List.mem_append.mp (hl ▸ hk) with hk | hk
    · exact h.others k hk
    · rw [hnil k hk]
      exact List.nil_prefix
  · rw [hl, List.pairwise_append]
    refine ⟨h.single, List.pairwise_of_forall_mem_list fun k _ k' hk' => .inr (hnil k' hk'),
      fun k _ k' hk' => .inr (hnil k' hk')⟩
  · exact ⟨htravel ▸ h.wired.travel, h.wired.home, fun c hc =>
      ⟨(hw.fresh c hc).1, (hw.fresh c hc).2.1, (h.wired.fresh c (hfresh ▸ hc)).2.2⟩⟩
  · have hb : ∀ c, ∀ m ∈ (s'.facing b).upload.endless.backward c,
        m ∈ (s.facing b).upload.endless.backward c ∨
          Transfer.BackwardOk (s.facing b).upload.endless m := by
      intro c m hm
      obtain ⟨hm, ho⟩ := List.mem_filter.mp hm
      obtain ⟨f, hf, hfm⟩ := List.mem_filterMap.mp hm
      rcases htoTravel c f hf with hf | ⟨id, d, n, v, rfl⟩
      · exact .inl (List.mem_filter.mpr ⟨List.mem_filterMap.mpr ⟨f, hf, hfm⟩, ho⟩)
      · obtain rfl := Option.some.inj hfm
        exact .inr ⟨Nat.zero_le _, Chunks.cut_zero _⟩
    refine h.upload.of_queues ?_ rfl ?_ ?_ rfl rfl rfl rfl id (fun ht => ?_) (fun c m hm => .inl ?_) hb
    · exact congrArg (·.transfer.localReads) htravel
    · exact congrArg (·.transfer.send.sendAcked) htravel
    · exact congrArg (·.transfer.send.chunks) htravel
    · exact Bool.or_eq_true_iff.mpr (.inl ht)
    · have heq : (s'.facing b).upload.endless.forward c = (s.facing b).upload.endless.forward c :=
        congrArg (fun q => (q.filterMap uploadForward).filter Transfer.Forward.isOpen) (htoHome c)
      exact heq ▸ hm
  · have hf : ∀ c, ∀ m ∈ (s'.facing b).download.endless.forward c,
        m ∈ (s.facing b).download.endless.forward c ∨
          Transfer.ForwardOk (s.facing b).download.endless m := by
      intro c m hm
      obtain ⟨hm, ho⟩ := List.mem_filter.mp hm
      obtain ⟨f, hf, hfm⟩ := List.mem_filterMap.mp hm
      rcases htoTravel c f hf with hf | ⟨id, d, n, v, rfl⟩
      · exact .inl (List.mem_filter.mpr ⟨List.mem_filterMap.mpr ⟨f, hf, hfm⟩, ho⟩)
      · cases hfm
    have hfailed : s'.travel.hasFailed = s.travel.hasFailed := by rw [htravel]
    refine h.download.of_queues rfl rfl rfl rfl rfl ?_ ?_ rfl (fun ht => hfailed.trans ht) id hf
      (fun c m hm => .inl ?_)
    · exact congrArg (·.transfer.receiveOffset) htravel
    · exact congrArg (·.transfer.localWriter.written) htravel
    · have heq :
          (s'.facing b).download.endless.backward c = (s.facing b).download.endless.backward c :=
        congrArg (fun q => (q.filterMap downloadBackward).filter Transfer.Backward.isOpen)
          (htoHome c)
      exact heq ▸ hm
  · rw [htravel] at hr ⊢
    exact h.acked hr

/-- Home answers on no Carrier, or with an OPEN_OK. -/
theorem Sealed.withHome {t : Sys} {oc : Option Uuid} {r : Home × List DataFrame} (h : s.Sealed b)
    (hw : (t.withHome oc r).Wired) (htravel : t.travel = s.travel) (hpast : t.past = s.past)
    (htoHome : ∀ c, (t.links c).toHome = (s.links c).toHome)
    (htoTravel : ∀ c, (t.links c).toTravel = (s.links c).toTravel) (hfresh : t.fresh = s.fresh)
    (hsent : oc ≠ none → ∀ f ∈ r.2, ∃ id d m v, f = .openOk id d 0 m v)
    (hunwritten : r.1.targetWriter = s.home.targetWriter)
    (hoffset : r.1.receiveOffset = s.home.receiveOffset)
    (hinactive : r.1.activeCarrier = none)
    (hcarriers : ∀ c ∈ r.1.carriers, c ∈ s.home.carriers ∨
      c ∉ s.travel.carriers ∧ (s.links c).toHome = [] ∧ (s.links c).toTravel = []) :
    (t.withHome oc r).Sealed b := by
  have hlinks : ∀ c, ∀ f ∈ ((t.withHome oc r).links c).toTravel, f ∈ (s.links c).toTravel ∨
      ∃ id d m v, f = .openOk id d 0 m v := by
    intro c f hf
    dsimp only [Sys.withHome] at hf
    split_ifs at hf with hc
    · rw [Link.pushTravel_toTravel, htoTravel] at hf
      refine (List.mem_append.mp hf).imp_right fun hf => hsent (by simp [hc]) f ?_
      split_ifs at hf
      · exact hf
      · cases hf
    · exact .inl (htoTravel c ▸ hf)
  have htoHome' : ∀ c, ((t.withHome oc r).links c).toHome = (s.links c).toHome := by
    intro c
    dsimp only [Sys.withHome]
    split_ifs <;> simp [htoHome]
  refine h.of_home hw htravel ⟨[], by simpa [Sys.withHome] using hpast, by simp⟩ htoHome' hlinks
    hfresh ?_ (hoffset.trans h.receiveOffset) hinactive fun c hc => ?_
  · exact (congrArg WriteHalf.written hunwritten).trans h.unwritten
  · rcases hcarriers c hc with hc | ⟨h1, h2, h3⟩
    · obtain ⟨h1, h2, h3⟩ := h.apart c hc
      refine ⟨htravel ▸ h1, (htoHome' c).trans h2, fun id d n m v hm => ?_⟩
      rcases hlinks c _ hm with hm | ⟨id, d, m, v, heq⟩
      · exact h3 _ _ _ _ _ hm
      · cases heq
        rfl
    · refine ⟨htravel ▸ h1, (htoHome' c).trans h2, fun id d n m v hm => ?_⟩
      rcases hlinks c _ hm with hm | ⟨id, d, m, v, heq⟩
      · simp [h3] at hm
      · cases heq
        rfl

/-- The instance moves without a word to anyone. -/
theorem Sealed.setHome {k : Home} (h : s.Sealed b) (hw : Wired { s with home := k })
    (hunwritten : k.targetWriter = s.home.targetWriter)
    (hoffset : k.receiveOffset = s.home.receiveOffset) (hinactive : k.activeCarrier = none)
    (hcarriers : k.carriers ⊆ s.home.carriers) : Sealed { s with home := k } b :=
  h.of_home hw rfl ⟨[], by simp, by simp⟩ (fun _ => rfl) (fun _ _ hf => .inl hf) rfl
    ((congrArg WriteHalf.written hunwritten).trans h.unwritten) (hoffset.trans h.receiveOffset)
    hinactive fun c hc => h.apart c (hcarriers hc)

theorem Sealed.home_step {a : Action} (hw : s.Wired) (hf : s.Framed) (h : s.Sealed b)
    (ha : a.atHome = true) (hs : s.step a = some s') : s'.Sealed b := by
  have hw' := hw.step hs
  cases a with
  | homeRespawn =>
    obtain ⟨-, -, rfl⟩ := homeRespawn_cases hs
    exact h.of_home hw' rfl ⟨[s.home], rfl, by simpa using h.unwritten⟩ (fun _ => rfl)
      (fun _ _ hf => .inl hf) rfl rfl rfl rfl fun _ hc => by cases hc
  | homeAttach c written =>
    obtain ⟨r, ho, hr, rfl⟩ := homeAttach_cases hs
    obtain ⟨h1, h2, h3, -⟩ := (hf.links c).offered ho
    have hlinks : ∀ d,
        ((s.setLink c { s.links c with offered := false }).links d).toHome = (s.links d).toHome ∧
        ((s.setLink c { s.links c with offered := false }).links d).toTravel =
          (s.links d).toTravel := by
      intro d
      by_cases hdc : d = c
      · subst hdc
        simp [setLink]
      · simp [setLink, hdc]
    have hn : c ∉ s.travel.carriers := fun hc => by simp [hf.held c hc] at h3
    simp only [Home.attach] at hr
    split_ifs at hr <;> obtain rfl := Option.some.inj hr
    · exact h.withHome hw' rfl rfl (fun d => (hlinks d).1) (fun d => (hlinks d).2) rfl
        (fun _ _ hf => by cases hf) rfl rfl h.inactive fun _ hd => .inl hd
    · refine h.withHome hw' rfl rfl (fun d => (hlinks d).1) (fun d => (hlinks d).2) rfl
        (fun _ f hf => ?_) rfl rfl h.inactive fun d hd => ?_
      · rw [List.mem_singleton.mp hf, h.receiveOffset]
        exact ⟨_, _, _, _, rfl⟩
      · rcases List.mem_cons.mp hd with rfl | hd
        · exact .inr ⟨hn, h1, h2⟩
        · exact .inl hd
    · exact h.withHome hw' rfl rfl (fun d => (hlinks d).1) (fun d => (hlinks d).2) rfl
        (fun _ _ hf => by cases hf) rfl rfl rfl fun _ hd => by cases hd
  | homeTargetData =>
    simp only [Sys.step] at hs
    split_ifs at hs
    obtain ⟨r, hr, rfl⟩ := Option.map_eq_some_iff.mp hs
    have hnone : s.home.activeCarrier ≠ none → ∀ f ∈ r.2, ∃ id d m v, f = .openOk id d 0 m v :=
      fun hne => absurd h.inactive hne
    simp only [Home.targetData] at hr
    split_ifs at hr <;> obtain rfl := Option.some.inj hr
    · exact h.withHome hw' rfl rfl (fun _ => rfl) (fun _ => rfl) rfl hnone rfl rfl rfl
        fun _ hd => by cases hd
    · exact h.withHome hw' rfl rfl (fun _ => rfl) (fun _ => rfl) rfl hnone rfl rfl h.inactive
        fun _ hd => .inl hd
  | homeTargetEof =>
    simp only [Sys.step] at hs
    split_ifs at hs
    obtain ⟨r, hr, rfl⟩ := Option.map_eq_some_iff.mp hs
    have hnone : s.home.activeCarrier ≠ none → ∀ f ∈ r.2, ∃ id d m v, f = .openOk id d 0 m v :=
      fun hne => absurd h.inactive hne
    simp only [Home.targetEnd] at hr
    split_ifs at hr
    obtain rfl := Option.some.inj hr
    exact h.withHome hw' rfl rfl (fun _ => rfl) (fun _ => rfl) rfl hnone rfl rfl h.inactive
      fun _ hd => .inl hd
  | homeFrame c io =>
    obtain ⟨f, rest, r, hq, hc, -, -⟩ := homeFrame_cases hs
    simp [(h.apart c hc).2.1] at hq
  | homeCarrierClosed c =>
    obtain ⟨k, -, -, -, hk, rfl⟩ := homeCarrierClosed_cases hs
    simp only [Home.carrierClosed] at hk
    split_ifs at hk <;> obtain rfl := Option.some.inj hk
    · exact h.setHome hw' rfl rfl rfl List.filter_sublist.subset
    · exact h.setHome hw' rfl rfl h.inactive List.filter_sublist.subset
  | homeFinish =>
    obtain ⟨k, hk, rfl⟩ := Option.map_eq_some_iff.mp hs
    simp only [Home.finish] at hk
    split_ifs at hk <;> obtain rfl := Option.some.inj hk <;>
      exact h.setHome hw' rfl rfl rfl (List.nil_subset _)
  | homeStop =>
    obtain ⟨k, hk, rfl⟩ := Option.map_eq_some_iff.mp hs
    simp only [Home.stop] at hk
    split_ifs at hk
    obtain rfl := Option.some.inj hk
    exact h.setHome hw' rfl rfl rfl (List.nil_subset _)
  | _ => cases ha

theorem Bound.step {a : Action} (hw : s.Wired) (h : s.Bound) (ha : ∀ c, a ≠ .homeRespawn c)
    (hs : s.step a = some s') : s'.Bound :=
  ⟨past_eq_of_step hs ha ▸ h.past, h.upload.steps (upload_step hw hs ha).endless,
    h.download.steps (download_step hw hs ha).endless⟩

theorem Bound.single (h : s.Bound) : (s.past ++ [s.home]).Pairwise Home.Exclusive := by
  rw [List.pairwise_append]
  exact ⟨List.pairwise_of_forall_mem_list fun k hk _ _ => .inl (h.past k hk),
    List.pairwise_singleton _ _, fun k hk _ _ => .inl (h.past k hk)⟩

/-- An instance that was acknowledged to Travel cannot be taken for its successor. -/
theorem Bound.seal {c : Uuid} (hw : s.Wired) (h : s.Bound)
    (hacked : s.travel.running = true → 0 < s.travel.transfer.send.sendAcked)
    (hs : s.homeRespawn c = some s') : s'.Sealed s.home := by
  obtain ⟨-, -, rfl⟩ := homeRespawn_cases hs
  refine ⟨by simp, fun k hk => ?_, h.single, ⟨hw.travel, hw.home, hw.fresh⟩, h.upload, h.download, hacked, rfl, rfl,
    rfl, fun _ hc => by cases hc⟩
  rcases List.mem_append.mp hk with hk | hk
  · rw [h.past k hk]
    exact List.nil_prefix
  · rw [List.mem_singleton.mp hk]

/-- An instance that left no trace is as good as its successor. -/
theorem Bound.replace {c : Uuid} (h : s.Bound)
    (htarget : s.home.targetWriter.written = [])
    (hlocal : s.travel.transfer.localWriter.written = [])
    (hdata : ∀ c, ∀ f ∈ (s.links c).toTravel, isData f = false)
    (hs : s.homeRespawn c = some s') : s'.Bound := by
  obtain ⟨-, -, rfl⟩ := homeRespawn_cases hs
  refine ⟨fun k hk => ?_, ?_, ?_⟩
  · rcases List.mem_append.mp hk with hk | hk
    · exact h.past k hk
    · rwa [List.mem_singleton.mp hk]
  · exact h.upload.renewReceiver htarget rfl rfl rfl rfl rfl rfl rfl rfl rfl rfl rfl
      fun ht => by cases ht
  · refine h.download.renewSender hlocal rfl rfl rfl rfl rfl (fun d => ?_) rfl rfl rfl rfl id
    change ((s.links d).toTravel.filterMap downloadForward).filter Transfer.Forward.isOpen = []
    rw [List.filter_eq_nil_iff]
    intro m hm
    obtain ⟨f, hf, hfm⟩ := List.mem_filterMap.mp hm
    have hno := hdata d f hf
    unfold downloadForward at hfm
    split at hfm
    · cases hno
    · obtain rfl := Option.some.inj hfm
      simp [Transfer.Forward.isOpen]
    · cases hfm

/-- Every step that meets the condition leaves the flow with one instance. -/
theorem bound_or_sealed_step {a : Action} (hw : s.Wired) (hf : s.Framed)
    (h : s.Bound ∨ ∃ b, s.Sealed b) (hg : s.replaceable a = true) (hs : s.step a = some s') :
    s'.Bound ∨ ∃ b, s'.Sealed b := by
  rcases h with h | ⟨b, h⟩
  · by_cases ha : ∃ c, a = .homeRespawn c
    · obtain ⟨c, rfl⟩ := ha
      by_cases hacked : s.travel.running = true → 0 < s.travel.transfer.send.sendAcked
      · exact .inr ⟨_, h.seal hw hacked hs⟩
      · obtain ⟨hrun, hacked⟩ := Classical.not_imp.mp hacked
        have hg : (s.home.targetWriter.written = [] ∧
            s.travel.transfer.localWriter.written = []) ∧
            ∀ c < s.fresh, ∀ f ∈ (s.links c).toTravel, isData f = false := by
          simpa [replaceable, hrun, hacked] using hg
        refine .inl (h.replace hg.1.1 hg.1.2 (fun c f hf => ?_) hs)
        by_cases hc : c < s.fresh
        · exact hg.2 c hc f hf
        · simp [(hw.fresh c (not_lt.mp hc)).1] at hf
    · exact .inl (h.step hw (fun c hc => ha ⟨c, hc⟩) hs)
  · cases ha : a.atHome with
    | false => exact .inr ⟨b, h.travel_step hw ha hs⟩
    | true => exact .inr ⟨b, h.home_step hw hf ha hs⟩

theorem bound_start (config : Config) : config.start.Bound :=
  ⟨fun _ hk => (by cases hk),
    .initial (fun _ => rfl) (fun _ => rfl) rfl rfl rfl rfl rfl rfl rfl rfl,
    .initial (fun _ => rfl) (fun _ => rfl) rfl rfl rfl rfl rfl rfl rfl rfl⟩

theorem Bound.unspliced (h : s.Bound) : s.Unspliced := by
  refine ⟨⟨s.home, by simp, h.download.written⟩, fun k hk => ?_, h.single⟩
  rcases List.mem_append.mp hk with hk | hk
  · rw [h.past k hk]
    exact List.nil_prefix
  · rw [List.mem_singleton.mp hk]
    exact h.upload.written

theorem Sealed.unspliced (h : s.Sealed b) : s.Unspliced := by
  have hb : b.targetWriter.written <+: s.travel.transfer.localReads.flatten := h.upload.written
  refine ⟨⟨b, List.mem_append_left _ h.mem, h.download.written⟩, fun k hk => ?_, ?_⟩
  · rcases List.mem_append.mp hk with hk | hk
    · exact (h.others k hk).trans hb
    · rw [List.mem_singleton.mp hk, h.unwritten]
      exact List.nil_prefix
  · rw [List.pairwise_append]
    refine ⟨h.single, List.pairwise_singleton _ _, fun k _ k' hk' => .inr ?_⟩
    rw [List.mem_singleton.mp hk', h.unwritten]

end Sys

variable {config : Config} {s : Sys}

/-- A flow whose instances are only replaced when Travel can tell, or when there is nothing to
tell, splices no two of them. -/
theorem unspliced_of_replaceable
    (h : (machine config).ReachableWhere (fun s a => s.replaceable a = true) s) :
    s.Unspliced := by
  have hcase : s.Bound ∨ ∃ b, s.Sealed b :=
    h.invariant (P := fun s => s.Bound ∨ ∃ b, s.Sealed b) (.inl (Sys.bound_start config))
      fun _ _ _ hr hi hg hs => Sys.bound_or_sealed_step (Sys.wired_of_reachable hr.reachable)
        (Sys.framed_of_reachable hr.reachable) hi hg hs
  rcases hcase with h | ⟨b, h⟩
  · exact h.unspliced
  · exact h.unspliced

/-- The first instance ends after its acknowledgement reached Travel. Travel gives the flow up
when it hears from the second. -/
theorem unspliced_restart :
    ∃ s, (machine ⟨7, 1000, 1000⟩).execWhere (fun s a => s.replaceable a = true)
      [.travelRace 1, .homeAttach 1 true, .travelOpened 1, .homeFrame 1 .done,
        .travelFrame 1 .done, .travelLocalData [1], .travelSelect, .homeFrame 1 .done,
        .travelFrame 1 .done, .homeStop "restart", .close 1 0 0, .travelSelect,
        .travelCarrierClosed 1, .travelRace 1, .homeRespawn 3, .homeAttach 3 true,
        .travelOpened 3] = some s ∧
    s.travel.phase = .failed .homeAckMovedBackwards ∧ s.Unspliced := by
  have hrun : ((machine ⟨7, 1000, 1000⟩).execWhere (fun s a => s.replaceable a = true)
      [.travelRace 1, .homeAttach 1 true, .travelOpened 1, .homeFrame 1 .done,
        .travelFrame 1 .done, .travelLocalData [1], .travelSelect, .homeFrame 1 .done,
        .travelFrame 1 .done, .homeStop "restart", .close 1 0 0, .travelSelect,
        .travelCarrierClosed 1, .travelRace 1, .homeRespawn 3, .homeAttach 3 true,
        .travelOpened 3]).map
      (fun s => s.travel.phase) = some (.failed .homeAckMovedBackwards) := by
    decide
  obtain ⟨s, hs, heq⟩ := Option.map_eq_some_iff.mp hrun
  exact ⟨s, hs, heq, unspliced_of_replaceable (Machine.reachableWhere_of_execWhere hs)⟩

/-- The acknowledgement of the first instance is lost with the Carrier, and Travel sends the same
byte to the second. -/
def lostAck : List Action :=
  [.travelRace 1, .homeAttach 1 true, .travelOpened 1, .homeFrame 1 .done, .travelFrame 1 .done,
    .travelLocalData [1], .travelSelect, .homeFrame 1 .done, .homeStop "restart", .close 1 0 0,
    .travelCarrierClosed 1, .travelRace 1, .homeRespawn 3, .homeAttach 3 true, .travelOpened 3,
    .homeFrame 3 .done, .travelFrame 3 .done, .homeFrame 3 .done]

/-- The first instance has sent one byte of its target, the second goes on behind it. -/
def splicedTarget : List Action :=
  [.travelRace 1, .homeAttach 1 true, .travelOpened 1, .homeFrame 1 .done, .travelFrame 1 .done,
    .homeTargetData [1], .travelFrame 1 .done, .homeStop "restart", .close 1 0 0, .travelSelect,
    .travelCarrierClosed 1, .travelRace 1, .homeRespawn 3, .homeAttach 3 true, .travelOpened 3,
    .homeFrame 3 .done, .travelFrame 3 .done, .homeTargetData [2], .homeTargetData [3],
    .travelFrame 3 .done, .travelSelect, .travelFrame 3 .done]

theorem not_unspliced_of_reachable :
    (∃ s h, (machine ⟨7, 1000, 1000⟩).exec lostAck = some s ∧ s.past = [h] ∧
      h.targetWriter.written = [1] ∧ s.home.targetWriter.written = [1]) ∧
    (∃ s h, (machine ⟨7, 1000, 1000⟩).exec splicedTarget = some s ∧ s.past = [h] ∧
      h.targetReads = [[1]] ∧ s.home.targetReads = [[2], [3]] ∧
      s.travel.transfer.localWriter.written = [1, 3]) ∧
    ¬ ∀ s, (machine ⟨7, 1000, 1000⟩).Reachable s → s.Unspliced := by
  have hlost : ((machine ⟨7, 1000, 1000⟩).exec lostAck).map (fun s =>
      (s.past.map (·.targetWriter.written), s.home.targetWriter.written)) = some ([[1]], [1]) := by
    decide
  have hspliced : ((machine ⟨7, 1000, 1000⟩).exec splicedTarget).map (fun s =>
      (s.past.map (·.targetReads), s.home.targetReads,
        s.travel.transfer.localWriter.written)) = some ([[[1]]], [[2], [3]], [1, 3]) := by
    decide
  obtain ⟨s, hs, heq⟩ := Option.map_eq_some_iff.mp hlost
  obtain ⟨hpast, hhome⟩ := Prod.mk.inj heq
  obtain ⟨h, hl, hh⟩ := List.map_eq_singleton_iff.mp hpast
  obtain ⟨t, ht, heq'⟩ := Option.map_eq_some_iff.mp hspliced
  simp only [Prod.mk.injEq] at heq'
  obtain ⟨hpast', hhome', hwritten⟩ := heq'
  obtain ⟨k, hk, hreads⟩ := List.map_eq_singleton_iff.mp hpast'
  refine ⟨⟨s, h, hs, hl, hh, hhome⟩, ⟨t, k, ht, hk, hreads, hhome', hwritten⟩, fun hall => ?_⟩
  have hsingle := (hall s (Machine.reachable_of_exec hs)).single
  simp [hl, Home.Exclusive, hh, hhome] at hsingle

end FlowSplice.Flow
