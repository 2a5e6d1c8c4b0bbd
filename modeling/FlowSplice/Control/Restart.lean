import FlowSplice.Control.Rollback
import FlowSplice.Control.History

/-! What a Travel finds of its accepted state when it starts again: `load_initial_control_trust_state`
on the store that its calls of `apply_control_snapshot` have left. -/
namespace FlowSplice.Control
variable {env : Installation} {installed : SignedDeploymentTrust} {trust : DeploymentTrust}
  {trustDigest : String} {now : ℕ}

/-- The state is as this Travel writes it, next to the installed trust document: what is cached was
verified, and belongs to the marks, or to a trust document before the installed one. -/
structure ControlTrustState.Coherent (env : Installation) (trust : DeploymentTrust)
    (trustDigest : String) (state : ControlTrustState) : Prop where
  shape : state.validateShape = .ok ()
  deployment : ∀ id, state.deploymentId = some id → id = trust.deploymentId
  paired : state.deploymentId.isSome → state.trustDigestSha256.isSome
  digest : trust.generation = state.trustGeneration →
    ∀ digest, state.trustDigestSha256 = some digest → digest = trustDigest
  fresh : state.deploymentId = none → state.cachedSnapshot = none
  cached : ∀ signed, state.cachedSnapshot = some signed → ∃ verified time,
    env.verify signed time = some verified ∧ requireSubject env verified = true ∧
      (state.matchesHighWater verified = true ∨
        verified.trust.generation < trust.generation ∧ state.trustGeneration ≤ trust.generation)

/-- The installed trust document has been taken into the state. -/
structure ControlTrustState.Taken (env : Installation) (trust : DeploymentTrust)
    (trustDigest : String) (state : ControlTrustState) : Prop where
  coherent : state.Coherent env trust trustDigest
  deployment : state.deploymentId = some trust.deploymentId
  generation : trust.generation ≤ state.trustGeneration

namespace ControlTrustState
variable {state proposed : ControlTrustState} {signed : SignedControlSnapshot}
  {verified : VerifiedControlSnapshot}

theorem validateShape_install (trust : DeploymentTrust) (trustDigest : String) :
    (state.install trust trustDigest).validateShape = state.validateShape := by
  unfold install
  split_ifs
  · rfl
  · rfl

theorem Coherent.install (h : state.Coherent env trust trustDigest) :
    (state.install trust trustDigest).Taken env trust trustDigest := by
  have hshape := (validateShape_install trust trustDigest).trans h.shape
  by_cases hraise : trust.generation > state.trustGeneration ∨ state.deploymentId.isNone
  · have heq : state.install trust trustDigest = { state with
        deploymentId := some trust.deploymentId
        trustGeneration := trust.generation
        trustDigestSha256 := some trustDigest } := if_pos hraise
    rw [heq] at hshape ⊢
    refine ⟨⟨hshape, ?_, fun _ => rfl, ?_, ?_, ?_⟩, rfl, le_rfl⟩
    · intro id hid
      exact (Option.some.inj hid).symm
    · intro _ digest hdigest
      exact (Option.some.inj hdigest).symm
    · intro hnone
      cases hnone
    · intro signed hsigned
      obtain ⟨verified, time, hverify, hsubject, hmatch⟩ := h.cached signed hsigned
      have hsome : state.deploymentId.isNone = false := by
        cases hid : state.deploymentId with
        | none =>
          have hnone := h.fresh hid
          rw [hnone] at hsigned
          cases hsigned
        | some id => rfl
      have hlt : state.trustGeneration < trust.generation := by
        simpa [hsome] using hraise
      refine ⟨verified, time, hverify, hsubject, .inr ⟨?_, le_rfl⟩⟩
      rcases hmatch with hmatch | hold
      · simp only [matchesHighWater, Bool.and_eq_true, beq_iff_eq] at hmatch
        omega
      · exact hold.1
  · have heq : state.install trust trustDigest = state := if_neg hraise
    rw [heq]
    rw [not_or, not_lt] at hraise
    refine ⟨h, ?_, hraise.1⟩
    cases hid : state.deploymentId with
    | none => simp [hid] at hraise
    | some id => rw [h.deployment id hid]

theorem Taken.install (h : state.Taken env trust trustDigest) :
    state.install trust trustDigest = state := by
  refine if_neg ?_
  rw [not_or, not_lt]
  exact ⟨h.generation, by simp [h.deployment]⟩

/-- A snapshot that is accepted is cached next to its own marks. -/
theorem Taken.accept {time : ℕ} (h : state.Taken env trust trustDigest)
    (hverify : env.verify signed time = some verified) (hsubject : requireSubject env verified = true)
    (haccept : state.accept verified = .ok (true, proposed)) :
    { proposed with cachedSnapshot := some signed }.Taken env trust trustDigest := by
  have hpayload := (Option.filter_eq_some_iff.mp hverify).2
  rw [Bool.and_eq_true] at hpayload
  have hgeneration : verified.payload.generation ≠ 0 := by
    have hvalid := hpayload.2
    simp only [ControlSnapshotPayload.validateAt, Bool.and_eq_true, bne_iff_ne] at hvalid
    tauto
  unfold ControlTrustState.accept at haccept
  rw [h.coherent.shape] at haccept
  simp only at haccept
  split_ifs at haccept with hid hrollback hconflict hepoch hstale hsame
  · simp at haccept
  · simp at haccept
  · obtain rfl := (Prod.mk.inj (Except.ok.inj haccept)).2
    have hdeployment : trust.deploymentId = verified.trust.deploymentId := by
      simpa [h.deployment] using hid
    have hle := h.generation
    refine ⟨⟨?_, ?_, fun _ => rfl, ?_, ?_, ?_⟩, ?_, ?_⟩
    · have htype : state.objectType = controlTrustStateObjectType := by
        by_contra hne
        have hshape := h.coherent.shape
        simp [validateShape, hne] at hshape
      simp [validateShape, htype, hgeneration]
    · intro id hid'
      exact (Option.some.inj hid').symm.trans hdeployment.symm
    · intro hequal digest hdigest
      change trust.generation = verified.trust.generation at hequal
      have hequal' : verified.trust.generation = state.trustGeneration := by omega
      have hsome : state.trustDigestSha256.isSome := h.coherent.paired (by simp [h.deployment])
      obtain ⟨old, hold⟩ := Option.isSome_iff_exists.mp hsome
      have hdigest' := h.coherent.digest (hequal.trans hequal') old hold
      have hagree : state.trustDigestSha256 = some verified.trustDigestSha256 := by
        by_contra hne
        exact hconflict ⟨hequal', hsome, hne⟩
      rw [hold] at hagree
      have hnew := Option.some.inj hdigest
      rw [← hnew, ← Option.some.inj hagree, hdigest']
    · intro hnone
      cases hnone
    · intro signed' hsigned'
      obtain rfl := Option.some.inj hsigned'
      refine ⟨verified, time, hverify, hsubject, .inl ?_⟩
      simp [matchesHighWater]
    · exact congrArg some hdeployment.symm
    · show trust.generation ≤ verified.trust.generation
      omega

end ControlTrustState

/-- What is known of a call: its snapshot was verified, and so is what it proposes. -/
structure Call.Sound (env : Installation) (trust : DeploymentTrust) (trustDigest : String)
    (call : Call) : Prop where
  verified : ∃ time, env.verify call.snapshot time = some call.verified
  subject : requireSubject env call.verified = true
  proposed : ∀ q, call.proposed = some q → q.Taken env trust trustDigest

/-- What is known of a process, and that the store has the state that it has accepted. -/
structure Process.Sound (env : Installation) (trust : DeploymentTrust) (trustDigest : String)
    (stored : Option ControlTrustState) (p : Process) : Prop where
  state : p.controlTrustState.Taken env trust trustDigest
  calls : ∀ i call, p.calls.get i = some call → call.Sound env trust trustDigest
  synced : stored = some p.floor

namespace Process
variable {p p' : Process} {a : Action} {i : ℕ} {call : Option Call}
  {stored : Option ControlTrustState}

theorem floor_setCall (hold : (p.calls.get i).bind Call.committed = none)
    (hnew : call.bind Call.committed = none) : (p.setCall i call).floor = p.floor := by
  have hget : ∀ j, ((p.setCall i call).calls.get j).bind Call.committed =
      (p.calls.get j).bind Call.committed := by
    intro j
    by_cases hj : j = i
    · subst hj
      rw [hold]
      cases hset : (p.setCall j call).calls.get j with
      | none => rfl
      | some c =>
        rcases Slots.get_set_cases hset with ⟨-, hc, -⟩ | ⟨hne, -⟩
        · rwa [hc] at hnew
        · exact absurd rfl hne
    · exact congrArg (·.bind Call.committed) (Slots.get_set_ne hj)
  have hlock : (p.setCall i call).controlLock = p.controlLock := rfl
  unfold floor
  rw [hlock]
  cases p.controlLock with
  | none => rfl
  | some j =>
    simp only [Option.bind_some, hget]
    rfl

theorem Sound.setCall (h : p.Sound env trust trustDigest stored)
    (hold : (p.calls.get i).bind Call.committed = none) (hnew : call.bind Call.committed = none)
    (hcall : ∀ c, call = some c → c.Sound env trust trustDigest) :
    (p.setCall i call).Sound env trust trustDigest stored where
  state := h.state
  calls j c hj := by
    rcases Slots.get_set_cases hj with ⟨rfl, hc, -⟩ | ⟨-, hj⟩
    · exact hcall c hc
    · exact h.calls j c hj
  synced := by rw [floor_setCall hold hnew, h.synced]

theorem Sound.receive (h : p.Sound env trust trustDigest stored) (snapshot : SignedControlSnapshot)
    (relayId relaySpki : String) (now later : ℕ) :
    (p.receive env snapshot relayId relaySpki now later).Sound env trust trustDigest stored := by
  unfold Process.receive
  cases hverify : env.verify snapshot now with
  | none => exact h
  | some verified =>
    simp only
    split_ifs with hchecks
    · simp only [Bool.and_eq_true] at hchecks
      have hget : ∀ j c, p.calls.get j = some c →
          (p.calls.push ⟨snapshot, verified, .verified⟩).get j = some c :=
        fun j c hj => Slots.get_push_of_some hj
      refine ⟨h.state, ?_, ?_⟩
      · intro j c hj
        rcases Slots.get_push_cases hj with ⟨-, rfl⟩ | ⟨-, hj⟩
        · exact ⟨⟨now, hverify⟩, hchecks.1.1, fun q hq => by cases hq⟩
        · exact h.calls j c hj
      · rw [h.synced]
        unfold floor
        cases p.controlLock with
        | none => rfl
        | some j =>
          simp only [Option.bind_some]
          rw [Slots.get_push]
          split_ifs with hj
          · have hnone : p.calls.get j = none := by
              by_contra hsome
              obtain ⟨c, hc⟩ := Option.ne_none_iff_exists'.mp hsome
              have hlt := Slots.lt_next_of_get hc
              omega
            rw [hnone]
            rfl
          · rfl
    · exact h

theorem Sound.lock (h : p.Sound env trust trustDigest stored) (hlock : p.lock i = some p') :
    p'.Sound env trust trustDigest stored := by
  unfold Process.lock at hlock
  split at hlock
  · next snapshot verified hcall hfree =>
    have hknown := h.calls i _ hcall
    obtain ⟨time, hverify⟩ := hknown.verified
    split at hlock
    · next proposed haccept =>
      obtain rfl := Option.some.inj hlock
      have htaken := h.state.accept hverify hknown.subject haccept
      refine ⟨h.state, ?_, ?_⟩
      · intro j c hj
        rcases Slots.get_set_cases hj with ⟨rfl, hc, -⟩ | ⟨-, hj⟩
        · obtain rfl := Option.some.inj hc
          refine ⟨hknown.verified, hknown.subject, ?_⟩
          intro q hq
          rwa [← Option.some.inj hq]
        · exact h.calls j c hj
      · rw [h.synced]
        simp [floor, hfree, Process.setCall, Slots.get_set_self hcall, Call.committed]
    · obtain rfl := Option.some.inj hlock
      apply h.setCall
      · rw [hcall]
        rfl
      · rfl
      · intro c hc
        cases hc
  · cases hlock

theorem Sound.openHistory (h : p.Sound env trust trustDigest stored)
    (hopen : p.openHistory i now = some p') : p'.Sound env trust trustDigest stored := by
  unfold Process.openHistory at hopen
  split at hopen
  · next snapshot verified proposed hcall hfree =>
    obtain rfl := Option.some.inj hopen
    have hknown := h.calls i _ hcall
    have hbase : Process.Sound env trust trustDigest stored { p with
        historyLock := some i
        blocking := p.blocking ++
          [BlockingTask.control i proposed (proposedHistory verified now p.relayHistory)] } :=
      ⟨h.state, h.calls, h.synced⟩
    apply hbase.setCall
    · show (p.calls.get i).bind Call.committed = none
      rw [hcall]
      rfl
    · rfl
    · intro c hc
      obtain rfl := Option.some.inj hc
      exact ⟨hknown.verified, hknown.subject, hknown.proposed⟩
  · cases hopen

theorem Sound.publish (h : p.Sound env trust trustDigest stored)
    (hpublish : p.publish i = some p') : p'.Sound env trust trustDigest stored := by
  unfold Process.publish at hpublish
  split at hpublish
  · next snapshot verified view rest hcall =>
    obtain rfl := Option.some.inj hpublish
    have hknown := h.calls i _ hcall
    have hbase : Process.Sound env trust trustDigest stored
        { p with views := p.views.write view verified.views } := ⟨h.state, h.calls, h.synced⟩
    apply hbase.setCall
    · show (p.calls.get i).bind Call.committed = none
      rw [hcall]
      rfl
    · cases rest <;> rfl
    · intro c hc
      cases rest with
      | nil => cases hc
      | cons view' rest' =>
        obtain rfl := Option.some.inj hc
        exact ⟨hknown.verified, hknown.subject, fun q hq => by cases hq⟩
  · cases hpublish

/-- A call that ends and has no commit to take over leaves the accepted state. -/
theorem Sound.release {c : Call} (h : p.Sound env trust trustDigest stored)
    (hcall : p.calls.get i = some c) (hnone : c.committed = none) :
    ((p.release i).setCall i none).Sound env trust trustDigest stored := by
  have hbase : (p.release i).floor = p.floor := by
    have hlock : (p.release i).controlLock = if p.controlLock = some i then none else p.controlLock :=
      rfl
    have hcalls : (p.release i).calls = p.calls := rfl
    have hstate : (p.release i).controlTrustState = p.controlTrustState := rfl
    unfold floor
    rw [hlock, hcalls, hstate]
    split_ifs with hheld
    · simp [hheld, hcall, hnone]
    · rfl
  have hreleased : (p.release i).Sound env trust trustDigest stored :=
    ⟨h.state, h.calls, h.synced.trans (congrArg some hbase.symm)⟩
  apply hreleased.setCall
  · show (p.calls.get i).bind Call.committed = none
    rw [hcall]
    exact hnone
  · rfl
  · intro c hc
    cases hc

theorem Sound.recordRelay {pick : RelayHistoryRecord → Bool}
    {update : RelayHistoryRecord → RelayHistoryRecord} {persist : RelayHistoryRecord → Bool}
    (h : p.Sound env trust trustDigest stored)
    (hrecord : p.recordRelay pick update persist = some p') :
    p'.Sound env trust trustDigest stored := by
  unfold Process.recordRelay at hrecord
  split_ifs at hrecord
  split at hrecord
  · obtain rfl := Option.some.inj hrecord
    exact ⟨h.state, h.calls, h.synced⟩
  · obtain rfl := Option.some.inj hrecord
    exact h

/-- The call takes over what its commit has stored, or fails. -/
theorem Sound.resume {result : Process × Option VerifiedControlSnapshot}
    (h : p.Sound env trust trustDigest stored) (hheld : p.Held stored)
    (hresume : p.resume i = some result) : result.1.Sound env trust trustDigest stored := by
  unfold Process.resume at hresume
  split at hresume
  · next snapshot verified proposed history hcall =>
    obtain rfl := Option.some.inj hresume
    have hknown := h.calls i _ hcall
    have hfloor : p.floor = proposed := hheld.floor_eq hcall rfl
    have hlock : p.controlLock = some i := (hheld.calls i _ hcall).holder rfl
    refine ⟨hknown.proposed proposed rfl, ?_, ?_⟩
    · intro j c hj
      rcases Slots.get_set_cases hj with ⟨rfl, hc, -⟩ | ⟨-, hj⟩
      · obtain rfl := Option.some.inj hc
        exact ⟨hknown.verified, hknown.subject, fun q hq => by cases hq⟩
      · exact h.calls j c hj
    · rw [h.synced, hfloor]
      simp [floor, Process.release, Process.setCall, hlock]
  · next snapshot verified proposed history hcall =>
    obtain rfl := Option.some.inj hresume
    exact h.release hcall rfl
  · cases hresume

/-- The commit that a call awaits has stored what the call proposes. -/
theorem Sound.commit {q : ControlTrustState} {history : List RelayHistoryRecord}
    (h : p.Sound env trust trustDigest stored) (hheld : p.Held stored)
    (hmem : .control i q history ∈ p.blocking) (hawaits : p.awaits i = true) (k : ℕ) :
    q.Taken env trust trustDigest ∧
      ({ p with blocking := p.blocking.eraseIdx k }.complete (.control i q history) true).Sound env
        trust trustDigest (some q) := by
  unfold awaits at hawaits
  split at hawaits
  · next snapshot verified proposed history' hcall =>
    have hknown := h.calls i _ hcall
    obtain rfl : proposed = q := (hheld.calls i _ hcall).spawned q history hmem
    have hlock : p.controlLock = some i := (hheld.calls i _ hcall).holder rfl
    have htaken := hknown.proposed proposed rfl
    have hcomplete : { p with blocking := p.blocking.eraseIdx k }.complete
        (.control i proposed history) true =
        { p with blocking := p.blocking.eraseIdx k }.setCall i
          (some ⟨snapshot, verified, .committing proposed history' (some true)⟩) := by
      simp [Process.complete, hcall]
    rw [hcomplete]
    refine ⟨htaken, h.state, ?_, ?_⟩
    · intro j c hj
      rcases Slots.get_set_cases hj with ⟨rfl, hc, -⟩ | ⟨-, hj⟩
      · obtain rfl := Option.some.inj hc
        exact ⟨hknown.verified, hknown.subject, hknown.proposed⟩
      · exact h.calls j c hj
    · simp [floor, hlock, Process.setCall, Slots.get_set_self hcall, Call.committed]
  · cases hawaits

/-- A task that wrote no control state. -/
theorem Sound.complete (h : p.Sound env trust trustDigest stored) (task : BlockingTask) (k : ℕ) :
    ({ p with blocking := p.blocking.eraseIdx k }.complete task false).Sound env trust trustDigest
      stored := by
  have hbase : Process.Sound env trust trustDigest stored
      { p with blocking := p.blocking.eraseIdx k } := ⟨h.state, h.calls, h.synced⟩
  unfold Process.complete
  cases task with
  | relay record => exact hbase
  | control i q history =>
    simp only
    split
    · next snapshot verified proposed history' hcall =>
      have hknown := h.calls i _ hcall
      apply hbase.setCall
      · rw [hcall]
        rfl
      · rfl
      · intro c hc
        obtain rfl := Option.some.inj hc
        exact ⟨hknown.verified, hknown.subject, hknown.proposed⟩
    · exact hbase

theorem Sound.floor_taken (h : p.Sound env trust trustDigest stored) :
    p.floor.Taken env trust trustDigest := by
  unfold floor
  cases hq : (p.controlLock.bind p.calls.get).bind Call.committed with
  | none => exact h.state
  | some q =>
    obtain ⟨c, hc, hcq⟩ := Option.bind_eq_some_iff.mp hq
    obtain ⟨i, -, hc⟩ := Option.bind_eq_some_iff.mp hc
    exact (h.calls i c hc).proposed q (Call.proposed_of_committed hcq)

end Process

namespace Sys
variable {s s' : Sys} {a : Action} {disk : Disk}

/-- The configuration stays as it is, control state is written for a call that awaits it only, and
no call is dropped before it has taken over what its commit has stored. -/
def awaited (installed : SignedDeploymentTrust) (s : Sys) : Action → Bool
  | .start installed' _ _ => installed' == installed
  | .commit k true =>
    match s.process with
    | none => true
    | some p =>
      match p.blocking[k]? with
      | some (.control i _ _) => p.awaits i
      | _ => true
  | .cancel i => s.process.all fun p => ((p.calls.get i).bind Call.committed).isNone
  | _ => true

theorem ordered_of_awaited (h : s.awaited installed a = true) : s.ordered a = true := by
  cases a with
  | commit k ok =>
    cases ok with
    | false => rfl
    | true =>
      cases hp : s.process with
      | none => simp [ordered, hp]
      | some p =>
        cases htask : p.blocking[k]? with
        | none => simp [ordered, hp, htask]
        | some task =>
          cases task with
          | control i proposed history =>
            simp only [awaited, hp, htask] at h
            simp only [ordered, hp, htask, Bool.or_eq_true]
            exact .inl h
          | _ => simp [ordered, hp, htask]
  | _ => rfl

/-- What is known of a Travel whose installed trust document this is. -/
structure Sound (env : Installation) (trust : DeploymentTrust) (trustDigest : String) (s : Sys) :
    Prop where
  kept : s.Kept
  disk : ∀ state, s.disk.controlState = some state → state.Coherent env trust trustDigest
  process : ∀ p, s.process = some p → p.Sound env trust trustDigest s.disk.store.controlState

theorem controlState_of_stored {disk : Disk} {state : ControlTrustState}
    (h : disk.store.controlState = some state) : disk.controlState = some state := by
  simp [Disk.controlState, h]

theorem verifyTrust_eq (hinstalled : env.trustDocument installed = some (trust, trustDigest))
    {trust' : DeploymentTrust} {digest' : String}
    (h : env.verifyTrust installed now = some (trust', digest')) :
    trust' = trust ∧ digest' = trustDigest := by
  have hsome := (Option.filter_eq_some_iff.mp h).1
  rw [hinstalled] at hsome
  have hpair := Prod.mk.inj (Option.some.inj hsome)
  exact ⟨hpair.1.symm, hpair.2.symm⟩

theorem Sound.start {io : LoadIo}
    (hinstalled : env.trustDocument installed = some (trust, trustDigest))
    (h : s.Sound env trust trustDigest) (hstep : s.start env installed now io = some s') :
    s'.Sound env trust trustDigest := by
  have hkept := Kept.start hstep
  rcases loadInitial_cases env s.disk installed now io with ⟨error, herror⟩ |
    ⟨trust', digest', state, hverify, hstate, hload⟩
  · obtain ⟨hnone, ⟨loaded, hloaded, -⟩ | rfl⟩ := start_cases hstep
    · rw [herror] at hloaded
      cases hloaded
    · refine ⟨hkept, ?_, fun p hp => ?_⟩
      · rw [herror]
        exact h.disk
      · rw [hnone] at hp
        cases hp
  · obtain ⟨rfl, rfl⟩ := verifyTrust_eq hinstalled hverify
    have htaken := (h.disk state hstate).install
    rcases commitInitial_cases env s.disk (state.install trust' digest') trust' now io with
      ⟨error, herror⟩ | ⟨hstored, hloaded⟩
    · obtain ⟨hnone, ⟨loaded, hloaded, -⟩ | rfl⟩ := start_cases hstep
      · rw [hload, herror] at hloaded
        cases hloaded
      · refine ⟨hkept, ?_, fun p hp => ?_⟩
        · rw [hload, herror]
          exact h.disk
        · rw [hnone] at hp
          cases hp
    · rw [← hload] at hstored hloaded
      have hdisk : ∀ state', (loadInitial env s.disk installed now io).2.controlState = some state' →
          state'.Coherent env trust' digest' := by
        intro state' hstate'
        rw [controlState_of_stored hstored] at hstate'
        rw [← Option.some.inj hstate']
        exact htaken.coherent
      obtain ⟨hnone, ⟨loaded, hok, rfl⟩ | rfl⟩ := start_cases hstep
      · refine ⟨hkept, hdisk, fun p hp => ?_⟩
        obtain rfl := Option.some.inj hp
        rw [hloaded loaded hok]
        refine ⟨htaken, fun i call hcall => (by cases hcall), ?_⟩
        exact hstored
      · refine ⟨hkept, hdisk, fun p hp => ?_⟩
        change s.process = some p at hp
        rw [hnone] at hp
        cases hp

theorem Sound.within {f : Process → Option Process} (h : s.Sound env trust trustDigest)
    (hkept : s'.Kept) (hstep : s.within f = some s')
    (hf : ∀ p p', s.process = some p → p.Sound env trust trustDigest s.disk.store.controlState →
      f p = some p' → p'.Sound env trust trustDigest s.disk.store.controlState) :
    s'.Sound env trust trustDigest := by
  obtain ⟨p', hp', rfl⟩ := Option.map_eq_some_iff.mp hstep
  obtain ⟨p, hp, hfp⟩ := Option.bind_eq_some_iff.mp hp'
  refine ⟨hkept, h.disk, fun p'' hp'' => ?_⟩
  obtain rfl := Option.some.inj hp''
  exact hf p p' hp (h.process p hp) hfp

theorem Sound.commit {k : ℕ} {ok : Bool} (h : s.Sound env trust trustDigest) (hkept : s'.Kept)
    (hok : s.awaited installed (.commit k ok) = true) (hstep : s.commit k ok = some s') :
    s'.Sound env trust trustDigest := by
  obtain ⟨p, task, hp, htask, rfl⟩ := commit_cases hstep
  have hsound := h.process p hp
  cases ok with
  | false =>
    refine ⟨hkept, h.disk, fun p' hp' => ?_⟩
    obtain rfl := Option.some.inj hp'
    exact hsound.complete task k
  | true =>
    cases task with
    | relay record =>
      have hsame : (BlockingTask.relay record).applyImmediate s.disk.store =
          s.disk.store.putHistory record := rfl
      refine ⟨hkept, ?_, fun p' hp' => ?_⟩
      · intro state hstate
        exact h.disk state hstate
      · obtain rfl := Option.some.inj hp'
        exact ⟨hsound.state, hsound.calls, hsound.synced⟩
    | control i q history =>
      simp only [awaited, hp, htask] at hok
      have hcommit := hsound.commit (h.kept p hp) (List.mem_of_getElem? htask) hok k
      have hstored : ((BlockingTask.control i q history).applyImmediate s.disk.store).controlState =
          some q := Store.commitSnapshot_controlState s.disk.store q history
      refine ⟨hkept, ?_, fun p' hp' => ?_⟩
      · intro state hstate
        rw [if_pos rfl, controlState_of_stored hstored] at hstate
        rw [← Option.some.inj hstate]
        exact hcommit.1.coherent
      · obtain rfl := Option.some.inj hp'
        rw [if_pos rfl]
        show Process.Sound env trust trustDigest
          ((BlockingTask.control i q history).applyImmediate s.disk.store).controlState _
        rw [hstored]
        exact hcommit.2

theorem Sound.step (hinstalled : env.trustDocument installed = some (trust, trustDigest))
    (h : s.Sound env trust trustDigest) (hok : s.awaited installed a = true)
    (hstep : s.step env a = some s') : s'.Sound env trust trustDigest := by
  have hkept : s'.Kept := h.kept.step (ordered_of_awaited hok) hstep
  cases a with
  | start installed' now io =>
    obtain rfl : installed' = installed := by simpa [awaited] using hok
    exact h.start hinstalled hstep
  | stop =>
    obtain ⟨p, -, rfl⟩ := Option.map_eq_some_iff.mp hstep
    exact ⟨hkept, h.disk, fun p' hp' => (by cases hp')⟩
  | receive snapshot relayId relaySpki now later =>
    refine h.within hkept hstep fun p p' _ hsound hp' => ?_
    rw [← Option.some.inj hp']
    exact hsound.receive snapshot relayId relaySpki now later
  | lock i => exact h.within hkept hstep fun p p' _ hsound hp' => hsound.lock hp'
  | openHistory i now => exact h.within hkept hstep fun p p' _ hsound hp' => hsound.openHistory hp'
  | commit k ok => exact h.commit hkept hok hstep
  | resume i =>
    obtain ⟨result, hresult, rfl⟩ := Option.map_eq_some_iff.mp hstep
    obtain ⟨p, hp, hresume⟩ := Option.bind_eq_some_iff.mp hresult
    refine ⟨hkept, h.disk, fun p' hp' => ?_⟩
    obtain rfl := Option.some.inj hp'
    exact (h.process p hp).resume (h.kept p hp) hresume
  | publish i => exact h.within hkept hstep fun p p' _ hsound hp' => hsound.publish hp'
  | cancel i =>
    refine h.within hkept hstep fun p p' hp hsound hp' => ?_
    obtain ⟨call, hcall, rfl⟩ := Option.map_eq_some_iff.mp hp'
    have hnone : call.committed = none := by simpa [awaited, hp, hcall] using hok
    exact hsound.release hcall hnone
  | relaySuccess relayId now =>
    exact h.within hkept hstep fun p p' _ hsound hp' => hsound.recordRelay hp'
  | relayFailure relay now =>
    exact h.within hkept hstep fun p p' _ hsound hp' => hsound.recordRelay hp'

theorem sound_of_awaited (hinstalled : env.trustDocument installed = some (trust, trustDigest))
    (hdisk : ∀ state, disk.controlState = some state → state.Coherent env trust trustDigest)
    (h : (machine env disk).ReachableWhere (fun s a => s.awaited installed a = true) s) :
    s.Sound env trust trustDigest := by
  apply h.invariant
  · exact ⟨fun p hp => (by cases hp), hdisk, fun p hp => (by cases hp)⟩
  · intro t a t' _ ht hok hstep
    exact ht.step hinstalled hok hstep

end Sys

/-- The snapshot was issued by now, is unexpired and its trust is valid. -/
def VerifiedControlSnapshot.Current (verified : VerifiedControlSnapshot) (now : ℕ) : Prop :=
  verified.trust.validateAt now = true ∧ verified.payload.issuedAtUnixSecs ≤ now + maxClockSkewSecs ∧
    now < verified.payload.expiresAtUnixSecs

/-- A snapshot that was verified once is verified as long as it is current. -/
theorem verify_iff_current {signed : SignedControlSnapshot} {verified : VerifiedControlSnapshot}
    {time : ℕ} (h : env.verify signed time = some verified) :
    env.verify signed now = some verified ↔ verified.Current now := by
  obtain ⟨hcontents, hvalid⟩ := Option.filter_eq_some_iff.mp h
  rw [Bool.and_eq_true] at hvalid
  have hpayload := hvalid.2
  simp only [ControlSnapshotPayload.validateAt, Bool.and_eq_true, decide_eq_true_eq] at hpayload
  rw [Installation.verify, hcontents, Option.filter_eq_some_iff, Bool.and_eq_true]
  simp only [ControlSnapshotPayload.validateAt, Bool.and_eq_true, decide_eq_true_eq,
    VerifiedControlSnapshot.Current]
  tauto

section Load
variable {state : ControlTrustState} {disk : Disk} {io : LoadIo}

theorem verifyTrust_isSome (hinstalled : env.trustDocument installed = some (trust, trustDigest)) :
    env.verifyTrust installed now =
      if trust.validateAt now = true then some (trust, trustDigest) else none := by
  rw [Installation.verifyTrust, hinstalled, Option.filter]

/-- A load from the state that a Travel has accepted. -/
theorem loadInitial_of_taken (hinstalled : env.trustDocument installed = some (trust, trustDigest))
    (hstate : disk.store.controlState = some state) (htaken : state.Taken env trust trustDigest)
    (hvalid : trust.validateAt now = true) :
    loadInitial env disk installed now io = commitInitial env disk state trust now io := by
  unfold loadInitial
  rw [verifyTrust_isSome hinstalled, if_pos hvalid, Sys.controlState_of_stored hstate]
  simp only [htaken.coherent.shape]
  rw [if_neg (by simp [htaken.deployment]), if_neg, htaken.install]
  rintro ⟨hequal, hsome, hne⟩
  obtain ⟨digest, hdigest⟩ := Option.isSome_iff_exists.mp hsome
  exact hne (by rw [hdigest, htaken.coherent.digest hequal digest hdigest])

/-- The rest of a load on a disk that takes writes. -/
theorem commitInitial_ok (hcommitted : io.committed = true) (hremoved : io.removed = true)
    (hhomes : ∀ snapshot, state.usableCache env now = some snapshot →
      configuredHomesAreTrusted env snapshot.trust snapshot.payload.catalog now = true) :
    ∃ disk', commitInitial env disk state trust now io =
      (.ok ⟨state, ((state.usableCache env now).map (·.trust)).getD trust,
        state.usableCache env now⟩, disk') := by
  have htrusted : ((state.usableCache env now).any fun snapshot =>
      !configuredHomesAreTrusted env (((state.usableCache env now).map (·.trust)).getD trust)
        snapshot.payload.catalog now) = false := by
    cases hcache : state.usableCache env now with
    | none => rfl
    | some snapshot => simpa using hhomes snapshot hcache
  simp only [commitInitial, htrusted, hcommitted, hremoved, Bool.false_eq_true, if_false, Bool.not_true,
    if_true]
  generalize (if disk.migratingLegacy = true then state.historicalSnapshot env else none) = historical
  generalize (if disk.migratingLegacy = true then disk.legacy.map (·.digest) else none) = migrated
  split_ifs
  · exact ⟨_, rfl⟩
  · exact ⟨_, rfl⟩

theorem homes_of_commitInitial {loaded : Loaded} {snapshot : VerifiedControlSnapshot}
    (h : (commitInitial env disk state trust now io).1 = .ok loaded)
    (hcache : state.usableCache env now = some snapshot) :
    configuredHomesAreTrusted env snapshot.trust snapshot.payload.catalog now = true := by
  by_contra huntrusted
  rw [Bool.not_eq_true] at huntrusted
  simp [commitInitial, hcache, huntrusted] at h

end Load

namespace Sys
variable {s : Sys} {p : Process} {disk : Disk}

/-- A restart at this time gives back the snapshot that the process has accepted, if its trust is
valid then and not before the installed document, and if it is unexpired. -/
def Restored (env : Installation) (installed : SignedDeploymentTrust) (trust : DeploymentTrust)
    (s : Sys) (p : Process) (now : ℕ) : Prop :=
  ∀ signed verified, p.floor.cachedSnapshot = some signed → env.contents signed = some verified →
    trust.generation ≤ verified.trust.generation → verified.trust.validateAt now = true →
    now < verified.payload.expiresAtUnixSecs →
    ∀ io : LoadIo, io.committed = true → io.removed = true → ∃ loaded disk',
      loadInitial env s.disk installed now io = (.ok loaded, disk') ∧
      loaded.trust = verified.trust ∧ loaded.cached = some verified

/-- A restart at this time takes no trust document that is older than the durable mark. -/
def NotBelow (env : Installation) (installed : SignedDeploymentTrust) (s : Sys) (now : ℕ) : Prop :=
  ∀ io loaded, (loadInitial env s.disk installed now io).1 = .ok loaded →
    loaded.state.trustGeneration ≤ loaded.trust.generation

/-- When a restart keeps the accepted state: while its snapshot is unexpired and its trust valid, the
installed document is valid as well, the configured Homes are trusted and the snapshot was issued by
now; and while the installed document is older than the mark and valid, the snapshot is current. -/
structure Restartable (env : Installation) (trust : DeploymentTrust) (p : Process) (now : ℕ) :
    Prop where
  restored : ∀ signed verified, p.floor.cachedSnapshot = some signed →
    env.contents signed = some verified → trust.generation ≤ verified.trust.generation →
    verified.trust.validateAt now = true → now < verified.payload.expiresAtUnixSecs →
    trust.validateAt now = true ∧ verified.payload.issuedAtUnixSecs ≤ now + maxClockSkewSecs ∧
      configuredHomesAreTrusted env verified.trust verified.payload.catalog now = true
  notBelow : trust.validateAt now = true → trust.generation < p.floor.trustGeneration →
    ∃ signed verified, p.floor.cachedSnapshot = some signed ∧ env.contents signed = some verified ∧
      verified.Current now

section Restart
variable {signed : SignedControlSnapshot} {verified : VerifiedControlSnapshot} {state : ControlTrustState}

/-- What is cached is used as long as it is current, unless the installed document has come since. -/
theorem usableCache_eq (h : state.Taken env trust trustDigest)
    (hsigned : state.cachedSnapshot = some signed) (hcontents : env.contents signed = some verified)
    (hcurrent : verified.Current now) (hgeneration : trust.generation ≤ verified.trust.generation) :
    state.usableCache env now = some verified := by
  obtain ⟨verified', time, hverify, hsubject, hmatch⟩ := h.coherent.cached signed hsigned
  have hsame := Installation.contents_of_verify hverify
  rw [hcontents] at hsame
  obtain rfl := Option.some.inj hsame
  have hnow := (verify_iff_current hverify).mpr hcurrent
  have hmatches : state.matchesHighWater verified = true := by
    rcases hmatch with hmatch | hold
    · exact hmatch
    · omega
  rw [ControlTrustState.usableCache, hsigned, Option.bind_some, hnow, Option.filter_eq_some_iff]
  exact ⟨rfl, by rw [hsubject, hmatches]; rfl⟩

theorem current_of_usableCache (h : state.usableCache env now = some verified) :
    ∃ signed, state.cachedSnapshot = some signed ∧ env.contents signed = some verified ∧
      verified.Current now ∧ verified.trust.generation = state.trustGeneration := by
  obtain ⟨hsome, hmatch⟩ := Option.filter_eq_some_iff.mp h
  obtain ⟨signed, hsigned, hverify⟩ := Option.bind_eq_some_iff.mp hsome
  simp only [ControlTrustState.matchesHighWater, Bool.and_eq_true, beq_iff_eq] at hmatch
  exact ⟨signed, hsigned, Installation.contents_of_verify hverify,
    (verify_iff_current hverify).mp hverify, hmatch.2.1.1.1.1⟩

theorem error_of_invalid (hinstalled : env.trustDocument installed = some (trust, trustDigest))
    (hinvalid : ¬ trust.validateAt now = true) (disk : Disk) (io : LoadIo) :
    (loadInitial env disk installed now io).1 = .error .trustInvalid := by
  unfold loadInitial
  rw [verifyTrust_isSome hinstalled, if_neg hinvalid]

theorem loaded_of_taken {io : LoadIo} {loaded : Loaded}
    (hinstalled : env.trustDocument installed = some (trust, trustDigest))
    (hstate : disk.store.controlState = some state) (htaken : state.Taken env trust trustDigest)
    (h : (loadInitial env disk installed now io).1 = .ok loaded) :
    trust.validateAt now = true ∧ (commitInitial env disk state trust now io).1 = .ok loaded ∧
      loaded = ⟨state, ((state.usableCache env now).map (·.trust)).getD trust,
        state.usableCache env now⟩ := by
  have hvalid : trust.validateAt now = true := by
    by_contra hinvalid
    rw [error_of_invalid hinstalled hinvalid] at h
    cases h
  rw [loadInitial_of_taken hinstalled hstate htaken hvalid] at h
  refine ⟨hvalid, h, ?_⟩
  rcases commitInitial_cases env disk state trust now io with ⟨error, herror⟩ | ⟨-, hloaded⟩
  · rw [herror] at h
    cases h
  · exact hloaded loaded h

theorem restored_iff (hinstalled : env.trustDocument installed = some (trust, trustDigest))
    (hsound : p.Sound env trust trustDigest s.disk.store.controlState)
    (hsigned : p.floor.cachedSnapshot = some signed) (hcontents : env.contents signed = some verified)
    (hgeneration : trust.generation ≤ verified.trust.generation)
    (htrust : verified.trust.validateAt now = true)
    (hunexpired : now < verified.payload.expiresAtUnixSecs) :
    (∀ io : LoadIo, io.committed = true → io.removed = true → ∃ loaded disk',
      loadInitial env s.disk installed now io = (.ok loaded, disk') ∧
      loaded.trust = verified.trust ∧ loaded.cached = some verified) ↔
    trust.validateAt now = true ∧ verified.payload.issuedAtUnixSecs ≤ now + maxClockSkewSecs ∧
      configuredHomesAreTrusted env verified.trust verified.payload.catalog now = true := by
  have htaken := hsound.floor_taken
  constructor
  · intro h
    obtain ⟨loaded, disk', hload, -, hcached⟩ := h {} rfl rfl
    have hok := loaded_of_taken hinstalled hsound.synced htaken (by rw [hload])
    have hcache : p.floor.usableCache env now = some verified := by
      rw [hok.2.2] at hcached
      exact hcached
    obtain ⟨signed', hsigned', hcontents', hcurrent, -⟩ := current_of_usableCache hcache
    exact ⟨hok.1, hcurrent.2.1, homes_of_commitInitial hok.2.1 hcache⟩
  · rintro ⟨hvalid, hissued, hhomes⟩ io hcommitted hremoved
    have hcache := usableCache_eq htaken hsigned hcontents ⟨htrust, hissued, hunexpired⟩ hgeneration
    obtain ⟨disk', hcommit⟩ := @commitInitial_ok env trust now p.floor s.disk io hcommitted hremoved
      fun snapshot hsnapshot => by
        rw [hcache] at hsnapshot
        rwa [← Option.some.inj hsnapshot]
    rw [loadInitial_of_taken hinstalled hsound.synced htaken hvalid, hcommit, hcache]
    exact ⟨_, _, rfl, rfl, rfl⟩

theorem notBelow_iff (hinstalled : env.trustDocument installed = some (trust, trustDigest))
    (hsound : p.Sound env trust trustDigest s.disk.store.controlState) :
    s.NotBelow env installed now ↔
      (trust.validateAt now = true → trust.generation < p.floor.trustGeneration →
        ∃ signed verified, p.floor.cachedSnapshot = some signed ∧
          env.contents signed = some verified ∧ verified.Current now) := by
  have htaken := hsound.floor_taken
  constructor
  · intro h hvalid hlt
    cases hcache : p.floor.usableCache env now with
    | some verified =>
      obtain ⟨signed, hsigned, hcontents, hcurrent, -⟩ := current_of_usableCache hcache
      exact ⟨signed, verified, hsigned, hcontents, hcurrent⟩
    | none =>
      obtain ⟨disk', hcommit⟩ := @commitInitial_ok env trust now p.floor s.disk {} rfl rfl
        fun snapshot hsnapshot => by
          rw [hcache] at hsnapshot
          cases hsnapshot
      have hload : loadInitial env s.disk installed now {} =
          commitInitial env s.disk p.floor trust now {} :=
        loadInitial_of_taken hinstalled hsound.synced htaken hvalid
      rw [hcommit] at hload
      have hle := h {} _ (by rw [hload])
      rw [hcache] at hle
      change p.floor.trustGeneration ≤ trust.generation at hle
      omega
  · intro h io loaded hok
    obtain ⟨hvalid, hcommit, rfl⟩ := loaded_of_taken hinstalled hsound.synced htaken hok
    cases hcache : p.floor.usableCache env now with
    | some verified =>
      obtain ⟨signed, -, -, -, hgeneration⟩ := current_of_usableCache hcache
      exact hgeneration.ge
    | none =>
      show p.floor.trustGeneration ≤ trust.generation
      by_contra hlt
      rw [not_le] at hlt
      obtain ⟨signed, verified, hsigned, hcontents, hcurrent⟩ := h hvalid hlt
      obtain ⟨verified', time, hverify, -, hmatch⟩ := htaken.coherent.cached signed hsigned
      have hsame := Installation.contents_of_verify hverify
      rw [hcontents] at hsame
      obtain rfl := Option.some.inj hsame
      rcases hmatch with hmatch | hold
      · simp only [ControlTrustState.matchesHighWater, Bool.and_eq_true, beq_iff_eq] at hmatch
        have hgeneration : trust.generation ≤ verified.trust.generation := by omega
        rw [usableCache_eq htaken hsigned hcontents hcurrent hgeneration] at hcache
        cases hcache
      · omega

end Restart

/-- In a run on an unchanged configuration, whose control state is written for calls that await it,
a restart keeps the accepted state and takes no older trust exactly when the installed document, the
configured Homes and the clock allow it. -/
theorem restartable_iff (hinstalled : env.trustDocument installed = some (trust, trustDigest))
    (hdisk : ∀ state, disk.controlState = some state → state.Coherent env trust trustDigest)
    (h : (machine env disk).ReachableWhere (fun s a => s.awaited installed a = true) s)
    (hp : s.process = some p) (now : ℕ) :
    Restored env installed trust s p now ∧ NotBelow env installed s now ↔
      Restartable env trust p now := by
  have hsound := (sound_of_awaited hinstalled hdisk h).process p hp
  constructor
  · rintro ⟨hrestored, hnotBelow⟩
    constructor
    · intro signed verified hsigned hcontents hgeneration htrust hunexpired
      have hall := hrestored signed verified hsigned hcontents hgeneration htrust hunexpired
      exact (restored_iff hinstalled hsound hsigned hcontents hgeneration htrust hunexpired).mp hall
    · exact (notBelow_iff hinstalled hsound).mp hnotBelow
  · intro hrestartable
    constructor
    · intro signed verified hsigned hcontents hgeneration htrust hunexpired
      have hall := hrestartable.restored signed verified hsigned hcontents hgeneration htrust hunexpired
      exact (restored_iff hinstalled hsound hsigned hcontents hgeneration htrust hunexpired).mpr hall
    · exact (notBelow_iff hinstalled hsound).mpr hrestartable.notBelow

end Sys

/-! An installed trust document that is followed by a second one. -/

/-- The trust document after a rotation. -/
def rotatedDeployment : DeploymentTrust := { sampleDeployment with generation := 2 }

/-- The installed document ends at this time. -/
def rotatingInstallation (notAfterUnixSecs : ℕ) : Installation :=
  { sampleInstallation with
    codec := { sampleCodec with
      trust := fun payloadHex =>
        if payloadHex = "7b7d" then some { sampleDeployment with notAfterUnixSecs }
        else if payloadHex = "7b7e" then some rotatedDeployment else none } }

def rotatedSnapshot : SignedControlSnapshot := ⟨⟨"7b7e", "0"⟩, "05", "a"⟩

/-- A snapshot with the second document is accepted. -/
def rotated : List Action :=
  [.start sampleTrust 1000 {},
    .receive rotatedSnapshot "relay-1" (samplePin '4') 1000 1000, .lock 0,
    .openHistory 0 1000, .commit 0 true, .resume 0, .publish 0, .publish 0, .publish 0]

/-- What a process has accepted. -/
def Sys.accepted (s : Sys) : Option (Option SignedControlSnapshot × ℕ) :=
  s.process.map fun p => (p.floor.cachedSnapshot, p.floor.trustGeneration)

theorem floor_of_accepted {s : Sys} {signed : SignedControlSnapshot} {generation : ℕ}
    (h : s.accepted = some (some signed, generation)) :
    ∃ p, s.process = some p ∧ p.floor.cachedSnapshot = some signed ∧
      p.floor.trustGeneration = generation := by
  obtain ⟨p, hp, heq⟩ := Option.map_eq_some_iff.mp h
  have hpair := Prod.mk.inj heq
  exact ⟨p, hp, hpair.1, hpair.2⟩

/-- A restart while the accepted snapshot is unexpired. -/
theorem restartable_iff_rotated :
    ∃ s p, (machine (rotatingInstallation 100000) {}).execWhere
        (fun s a => s.awaited sampleTrust a = true) rotated = some s ∧ s.process = some p ∧
      p.floor.trustGeneration = 2 ∧
      Sys.Restored (rotatingInstallation 100000) sampleTrust sampleDeployment s p 1250 ∧
      Sys.NotBelow (rotatingInstallation 100000) sampleTrust s 1250 := by
  have hrun : ((machine (rotatingInstallation 100000) {}).execWhere
      (fun s a => s.awaited sampleTrust a = true) rotated).map Sys.accepted =
        some (some (some rotatedSnapshot, 2)) := by
    decide +kernel
  obtain ⟨s, hs, haccepted⟩ := Option.map_eq_some_iff.mp hrun
  obtain ⟨p, hp, hsigned, hgeneration⟩ := floor_of_accepted haccepted
  have hinstalled : (rotatingInstallation 100000).trustDocument sampleTrust =
      some (sampleDeployment, sampleCodec.sha256 "7b7d") := by
    decide +kernel
  have hcontents : ((rotatingInstallation 100000).contents rotatedSnapshot).any (fun verified =>
      decide (sampleDeployment.validateAt 1250 = true ∧
        configuredHomesAreTrusted (rotatingInstallation 100000) verified.trust
          verified.payload.catalog 1250 = true ∧ verified.trust.validateAt 1250 = true ∧
        verified.payload.issuedAtUnixSecs ≤ 1250 + maxClockSkewSecs ∧
        1250 < verified.payload.expiresAtUnixSecs)) = true := by
    decide +kernel
  obtain ⟨verified, hverified, hall⟩ := Option.any_eq_true _ _ |>.mp hcontents
  obtain ⟨hvalid, hhomes, htrust, hissued, hunexpired⟩ := of_decide_eq_true hall
  refine ⟨s, p, hs, hp, hgeneration, ?_⟩
  refine (Sys.restartable_iff hinstalled (fun state hstate => ?_)
    (Machine.reachableWhere_of_execWhere hs) hp 1250).mpr ⟨?_, ?_⟩
  · obtain rfl := Option.some.inj hstate
    exact ⟨rfl, fun id hid => (by cases hid), fun h => (by cases h), fun _ digest h => (by cases h),
      fun _ => rfl, fun signed h => (by cases h)⟩
  · intro signed verified' hsigned' hcontents' _ _ _
    rw [hsigned] at hsigned'
    obtain rfl := Option.some.inj hsigned'
    rw [hverified] at hcontents'
    obtain rfl := Option.some.inj hcontents'
    exact ⟨hvalid, hissued, hhomes⟩
  · intro _ _
    exact ⟨rotatedSnapshot, verified, hsigned, hverified, htrust, hissued, hunexpired⟩

/-- An installed document that has expired since keeps a Travel from starting with an accepted state
that is valid; and one that is older than the mark is taken when the snapshot has expired. -/
theorem not_restored_of_rotated :
    (∃ s p, (machine (rotatingInstallation 1200) {}).execWhere
        (fun s a => s.awaited sampleTrust a = true) rotated = some s ∧ s.process = some p ∧
      ¬ Sys.Restored (rotatingInstallation 1200) sampleTrust
        { sampleDeployment with notAfterUnixSecs := 1200 } s p 1250) ∧
    (∃ s p, (machine (rotatingInstallation 100000) {}).execWhere
        (fun s a => s.awaited sampleTrust a = true) rotated = some s ∧ s.process = some p ∧
      ¬ Sys.NotBelow (rotatingInstallation 100000) sampleTrust s 2000) := by
  constructor
  · have hrun : ((machine (rotatingInstallation 1200) {}).execWhere
        (fun s a => s.awaited sampleTrust a = true) rotated).map (fun s =>
          (s.accepted, decide ((loadInitial (rotatingInstallation 1200) s.disk sampleTrust 1250
            {}).1.isOk = true))) = some (some (some rotatedSnapshot, 2), false) := by
      decide +kernel
    obtain ⟨s, hs, heq⟩ := Option.map_eq_some_iff.mp hrun
    have hpair := Prod.mk.inj heq
    obtain ⟨p, hp, hsigned, -⟩ := floor_of_accepted hpair.1
    have hcontents : ((rotatingInstallation 1200).contents rotatedSnapshot).any (fun verified =>
        decide (sampleDeployment.generation ≤ verified.trust.generation ∧
          verified.trust.validateAt 1250 = true ∧ 1250 < verified.payload.expiresAtUnixSecs)) =
        true := by
      decide +kernel
    obtain ⟨verified, hverified, hall⟩ := Option.any_eq_true _ _ |>.mp hcontents
    obtain ⟨hgeneration, htrust, hunexpired⟩ := of_decide_eq_true hall
    refine ⟨s, p, hs, hp, fun hrestored => ?_⟩
    obtain ⟨loaded, disk', hload, -⟩ := hrestored rotatedSnapshot verified hsigned hverified hgeneration
      htrust hunexpired {} rfl rfl
    have hfails := of_decide_eq_false hpair.2
    rw [hload] at hfails
    exact hfails rfl
  · have hrun : ((machine (rotatingInstallation 100000) {}).execWhere
        (fun s a => s.awaited sampleTrust a = true) rotated).map (fun s =>
          (s.accepted, (loadInitial (rotatingInstallation 100000) s.disk sampleTrust 2000
            {}).1.toOption.map fun loaded => (loaded.state.trustGeneration, loaded.trust.generation))) =
        some (some (some rotatedSnapshot, 2), some (2, 1)) := by
      decide +kernel
    obtain ⟨s, hs, heq⟩ := Option.map_eq_some_iff.mp hrun
    have hpair := Prod.mk.inj heq
    obtain ⟨p, hp, -, -⟩ := floor_of_accepted hpair.1
    obtain ⟨loaded, hloaded, hgenerations⟩ := Option.map_eq_some_iff.mp hpair.2
    have hgenerations := Prod.mk.inj hgenerations
    refine ⟨s, p, hs, hp, fun hnotBelow => ?_⟩
    have hok : (loadInitial (rotatingInstallation 100000) s.disk sampleTrust 2000 {}).1 =
        .ok loaded := by
      cases hresult : (loadInitial (rotatingInstallation 100000) s.disk sampleTrust 2000 {}).1 with
      | error error =>
        rw [hresult] at hloaded
        cases hloaded
      | ok loaded' =>
        rw [hresult] at hloaded
        rw [Option.some.inj hloaded]
    have hle := hnotBelow {} loaded hok
    omega

end FlowSplice.Control
