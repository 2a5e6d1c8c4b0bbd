import FlowSplice.Control.Apply

/-! The views of a Travel process follow the snapshot recorded in `control_trust_state`, as long
as no call writes over what the recorded one has written. -/
namespace FlowSplice.Control

/-- The views that the call has still to write. -/
def Call.pending (call : Call) : List View :=
  match call.phase with
  | .publishing view rest => view :: rest
  | _ => []

namespace Process
variable {env : Installation} {p p' : Process} {a : Action} {i : ℕ}

/-- The call accepted the recorded snapshot and has still to write the view. -/
def writes (p : Process) (view : View) (i : ℕ) : Bool :=
  (p.calls.get i).any fun call =>
    call.pending.contains view && p.controlTrustState.cachedSnapshot == some call.snapshot

/-- The recorded snapshot agrees with `views` on the view. -/
def records (env : Installation) (p : Process) (view : View) (views : Views) : Bool :=
  (p.controlTrustState.cachedSnapshot.bind env.contents).all fun verified =>
    Views.agree view views verified.views

theorem agree_of_records {view : View} {views : Views} {signed : SignedControlSnapshot}
    {verified : VerifiedControlSnapshot} (h : p.records env view views = true)
    (hs : p.controlTrustState.cachedSnapshot = some signed)
    (hv : env.contents signed = some verified) : Views.agree view views verified.views = true := by
  simpa [records, hs, hv] using h

theorem writes_iff {view : View} : p.writes view i = true ↔ ∃ call, p.calls.get i = some call ∧
    view ∈ call.pending ∧ p.controlTrustState.cachedSnapshot = some call.snapshot := by
  simp [writes, Option.any_eq_true]

/-- What holds of the views of a process: each is what the recorded snapshot says, or will be. -/
structure Shown (env : Installation) (p : Process) : Prop where
  contents : ∀ i call, p.calls.get i = some call → env.contents call.snapshot = some call.verified
  proposed : ∀ i call q, p.calls.get i = some call → call.proposed = some q →
    q.cachedSnapshot = some call.snapshot
  views : ∀ signed, p.controlTrustState.cachedSnapshot = some signed →
    ∃ verified, env.contents signed = some verified ∧
      ∀ view, Views.agree view p.views verified.views = true ∨ ∃ i, p.writes view i = true

/-- A call that has no view to write ends, or goes on to another await. -/
theorem Shown.setCall {c : Call} {call : Option Call} (h : p.Shown env)
    (hc : p.calls.get i = some c) (hpending : c.pending = [])
    (hcalls : p'.calls = p.calls.set i call)
    (hstate : p'.controlTrustState = p.controlTrustState) (hviews : p'.views = p.views)
    (hcall : ∀ c', call = some c' → c'.snapshot = c.snapshot ∧ c'.verified = c.verified ∧
      ∀ q, c'.proposed = some q → q.cachedSnapshot = some c.snapshot) : p'.Shown env := by
  refine ⟨fun j c' hj => ?_, fun j c' q hj hq => ?_, fun signed hs => ?_⟩
  · rw [hcalls] at hj
    rcases Slots.get_set_cases hj with ⟨rfl, hc', -⟩ | ⟨-, hj⟩
    · obtain ⟨hsnap, hver, -⟩ := hcall c' hc'
      rw [hsnap, hver]
      exact h.contents j c hc
    · exact h.contents j c' hj
  · rw [hcalls] at hj
    rcases Slots.get_set_cases hj with ⟨rfl, hc', -⟩ | ⟨-, hj⟩
    · obtain ⟨hsnap, -, hprop⟩ := hcall c' hc'
      rw [hsnap]
      exact hprop q hq
    · exact h.proposed j c' q hj hq
  · rw [hstate] at hs
    obtain ⟨verified, hv, hall⟩ := h.views signed hs
    refine ⟨verified, hv, fun view => (hall view).imp (by rw [hviews]; exact id) ?_⟩
    rintro ⟨j, hw⟩
    obtain ⟨c', hj, hm, hrec⟩ := writes_iff.mp hw
    have hne : j ≠ i := by
      rintro rfl
      obtain rfl := Option.some.inj (hc.symm.trans hj)
      simp [hpending] at hm
    exact ⟨j, writes_iff.mpr ⟨c', by rw [hcalls, Slots.get_set_ne hne, hj], hm, by rw [hstate, hrec]⟩⟩

theorem Shown.receive {snapshot : SignedControlSnapshot} {verified : VerifiedControlSnapshot}
    (h : p.Shown env) (hv : env.contents snapshot = some verified) :
    { p with calls := p.calls.push { snapshot := snapshot, verified := verified } }.Shown env := by
  refine ⟨fun j c hj => ?_, fun j c q hj hq => ?_, fun signed hs => ?_⟩
  · rcases Slots.get_push_cases hj with ⟨-, rfl⟩ | ⟨-, hj⟩
    · exact hv
    · exact h.contents j c hj
  · rcases Slots.get_push_cases hj with ⟨-, rfl⟩ | ⟨-, hj⟩
    · cases hq
    · exact h.proposed j c q hj hq
  · obtain ⟨v, hv', hall⟩ := h.views signed hs
    refine ⟨v, hv', fun view => (hall view).imp id ?_⟩
    rintro ⟨j, hw⟩
    obtain ⟨c, hj, hm, hrec⟩ := writes_iff.mp hw
    have hget : (p.calls.push { snapshot := snapshot, verified := verified }).get j = some c := by
      rw [Slots.get_push, if_neg (Nat.ne_of_lt (Slots.lt_next_of_get hj)), hj]
    exact ⟨j, writes_iff.mpr ⟨c, hget, hm, hrec⟩⟩

/-- A call writes a view that it may write. -/
theorem Shown.publish {snapshot : SignedControlSnapshot} {verified : VerifiedControlSnapshot}
    {view : View} {rest : List View} {next : Option Call} (h : p.Shown env)
    (hc : p.calls.get i = some ⟨snapshot, verified, .publishing view rest⟩)
    (hn : (rest = [] ∧ next = none) ∨ ∃ view' rest', rest = view' :: rest' ∧
      next = some ⟨snapshot, verified, .publishing view' rest'⟩)
    (hg : (∃ j, p.writes view j = true) ∨ p.records env view verified.views = true) :
    ({ p with views := p.views.write view verified.views }.setCall i next).Shown env := by
  have hnext : ∀ c', next = some c' → c'.snapshot = snapshot ∧ c'.verified = verified ∧
      c'.pending = rest ∧ c'.proposed = none := by
    rcases hn with ⟨-, rfl⟩ | ⟨view', rest', rfl, rfl⟩
    · exact fun _ hc' => by cases hc'
    · intro c' hc'
      obtain rfl := Option.some.inj hc'
      exact ⟨rfl, rfl, rfl, rfl⟩
  refine ⟨fun j c' hj => ?_, fun j c' q hj hq => ?_, fun signed hs => ?_⟩
  · rcases Slots.get_set_cases hj with ⟨rfl, hc', -⟩ | ⟨-, hj⟩
    · obtain ⟨hsnap, hver, -⟩ := hnext c' hc'
      rw [hsnap, hver]
      exact h.contents j _ hc
    · exact h.contents j c' hj
  · rcases Slots.get_set_cases hj with ⟨rfl, hc', -⟩ | ⟨-, hj⟩
    · simp [(hnext c' hc').2.2.2] at hq
    · exact h.proposed j c' q hj hq
  · obtain ⟨v, hv, hall⟩ := h.views signed hs
    have hother : ∀ j view', j ≠ i → p.writes view' j = true →
        ({ p with views := p.views.write view verified.views }.setCall i next).writes view' j =
          true := by
      intro j view' hne hw
      obtain ⟨c', hj, hm, hrec⟩ := writes_iff.mp hw
      exact writes_iff.mpr ⟨c', (Slots.get_set_ne hne).trans hj, hm, hrec⟩
    refine ⟨v, hv, fun view' => ?_⟩
    by_cases hview : view' = view
    · subst hview
      have hagree : Views.agree view' verified.views v.views = true →
          Views.agree view' (p.views.write view' verified.views) v.views = true := fun ha => by
        rw [Views.agree_write_self, ha]
      rcases hg with ⟨j, hw⟩ | hrec
      · by_cases hji : j = i
        · subst hji
          obtain ⟨c', hj, -, hrec⟩ := writes_iff.mp hw
          obtain rfl := Option.some.inj (hc.symm.trans hj)
          obtain rfl := Option.some.inj (hs.symm.trans hrec)
          obtain rfl := Option.some.inj (hv.symm.trans (h.contents j _ hc))
          exact .inl (hagree (Views.agree_self view' _))
        · exact .inr ⟨j, hother j view' hji hw⟩
      · exact .inl (hagree (agree_of_records hrec hs hv))
    · refine (hall view').imp (fun ha => ?_) ?_
      · exact (Views.agree_write_ne hview _ _ _).trans ha
      · rintro ⟨j, hw⟩
        by_cases hji : j = i
        · subst hji
          obtain ⟨c', hj, hm, hrec⟩ := writes_iff.mp hw
          obtain rfl := Option.some.inj (hc.symm.trans hj)
          have hm : view' ∈ rest := (List.mem_cons.mp hm).resolve_left hview
          rcases hn with ⟨rfl, -⟩ | ⟨view'', rest', rfl, rfl⟩
          · exact (List.not_mem_nil hm).elim
          · exact ⟨j, writes_iff.mpr ⟨_, Slots.get_set_self hc, hm, hrec⟩⟩
        · exact ⟨j, hother j view' hji hw⟩

theorem Shown.cancel {c : Call} (h : p.Shown env) (hc : p.calls.get i = some c)
    (hg : p.controlTrustState.cachedSnapshot = some c.snapshot →
      ∀ view ∈ c.pending, p.records env view p.views = true) :
    ((p.release i).setCall i none).Shown env := by
  refine ⟨fun j c' hj => ?_, fun j c' q hj hq => ?_, fun signed hs => ?_⟩
  · rcases Slots.get_set_cases hj with ⟨-, hc', -⟩ | ⟨-, hj⟩
    · cases hc'
    · exact h.contents j c' hj
  · rcases Slots.get_set_cases hj with ⟨-, hc', -⟩ | ⟨-, hj⟩
    · cases hc'
    · exact h.proposed j c' q hj hq
  · obtain ⟨v, hv, hall⟩ := h.views signed hs
    refine ⟨v, hv, fun view => ?_⟩
    rcases hall view with ha | ⟨j, hw⟩
    · exact .inl ha
    · obtain ⟨c', hj, hm, hrec⟩ := writes_iff.mp hw
      by_cases hji : j = i
      · subst hji
        obtain rfl := Option.some.inj (hc.symm.trans hj)
        exact .inl (agree_of_records (hg hrec view hm) hs hv)
      · exact .inr ⟨j, writes_iff.mpr ⟨c', (Slots.get_set_ne hji).trans hj, hm, hrec⟩⟩

/-- A call that takes over its own state has all views to write. -/
theorem Shown.resume {snapshot : SignedControlSnapshot} {verified : VerifiedControlSnapshot}
    {q : ControlTrustState} {history history' : List RelayHistoryRecord} (h : p.Shown env)
    (hc : p.calls.get i = some ⟨snapshot, verified, .committing q history (some true)⟩) :
    ({ p.release i with controlTrustState := q, relayHistory := history' }.setCall i
      (some ⟨snapshot, verified, .publishing .deploymentTrust [.directory, .catalog]⟩)).Shown
      env := by
  have hq : q.cachedSnapshot = some snapshot := h.proposed i _ q hc rfl
  have hcontents := h.contents i _ hc
  refine ⟨fun j c' hj => ?_, fun j c' q' hj hq' => ?_, fun signed hs => ?_⟩
  · rcases Slots.get_set_cases hj with ⟨rfl, hc', -⟩ | ⟨-, hj⟩
    · obtain rfl := Option.some.inj hc'
      exact hcontents
    · exact h.contents j c' hj
  · rcases Slots.get_set_cases hj with ⟨-, hc', -⟩ | ⟨-, hj⟩
    · obtain rfl := Option.some.inj hc'
      cases hq'
    · exact h.proposed j c' q' hj hq'
  · obtain rfl := Option.some.inj (hq.symm.trans hs)
    refine ⟨verified, hcontents, fun view => .inr ⟨i, writes_iff.mpr
      ⟨_, Slots.get_set_self hc, ?_, hs⟩⟩⟩
    cases view <;> simp [Call.pending]

/-- A process shows what it loads, unless it has a snapshot recorded that it cannot use. -/
theorem Shown.load {installed : SignedDeploymentTrust} {now : ℕ} {io : LoadIo} {disk : Disk}
    {loaded : Loaded} (h : (loadInitial env disk installed now io).1 = .ok loaded)
    (hg : loaded.state.cachedSnapshot = none ∨ loaded.cached.isSome) (store : Store) :
    (load loaded store).Shown env := by
  have hloaded : loaded.cached = loaded.state.usableCache env now ∧
      ∃ trust, loaded.trust = (loaded.cached.map (·.trust)).getD trust := by
    rcases loadInitial_cases env disk installed now io with
      ⟨error, he⟩ | ⟨trust, trustDigest, state, -, -, heq⟩
    · simp [he] at h
    · rcases commitInitial_cases env disk (state.install trust trustDigest) trust now io with
        ⟨error, he⟩ | ⟨-, hloaded⟩
      · simp [heq, he] at h
      · rw [heq] at h
        obtain rfl := hloaded loaded h
        exact ⟨rfl, trust, rfl⟩
  obtain ⟨hcached, trust, htrust⟩ := hloaded
  refine ⟨fun i c hc => (by cases hc), fun i c q hc => (by cases hc), fun signed hs => ?_⟩
  have hs : loaded.state.cachedSnapshot = some signed := hs
  obtain ⟨v, hv⟩ := Option.isSome_iff_exists.mp (hg.resolve_left (by simp [hs]))
  have husable := (Option.filter_eq_some_iff.mp (hcached.symm.trans hv)).1
  simp only [hs, Option.bind_some] at husable
  refine ⟨v, Installation.contents_of_verify husable, fun view => .inl ?_⟩
  have hviews : (Process.load loaded store).views = v.views := by
    simp [Process.load, hv, htrust, VerifiedControlSnapshot.views]
  rw [hviews, Views.agree_self]

theorem Shown.complete (h : p.Shown env) (task : BlockingTask) (ok : Bool) (k : ℕ) :
    ({ p with blocking := p.blocking.eraseIdx k }.complete task ok).Shown env := by
  have herase : { p with blocking := p.blocking.eraseIdx k }.Shown env :=
    ⟨h.contents, h.proposed, h.views⟩
  unfold Process.complete
  split
  · exact herase
  · split
    · next snapshot verified q history hc =>
      refine herase.setCall hc rfl rfl rfl rfl fun c' hc' => ?_
      obtain rfl := Option.some.inj hc'
      exact ⟨rfl, rfl, fun q' hq' => h.proposed _ _ q' hc hq'⟩
    · exact herase

/-- Whether a publication or a cancellation leaves the views with what is recorded. -/
def settling (env : Installation) (p : Process) : Action → Bool
  | .publish i =>
    match p.calls.get i with
    | some ⟨_, verified, .publishing view _⟩ =>
      (List.range p.calls.next).any (p.writes view) || p.records env view verified.views
    | _ => true
  | .cancel i =>
    (p.calls.get i).all fun call =>
      p.controlTrustState.cachedSnapshot != some call.snapshot ||
        call.pending.all fun view => p.records env view p.views
  | _ => true

theorem Shown.moves (h : p.Shown env) (hg : p.settling env a = true) (hm : p.Moves env a p') :
    p'.Shown env := by
  cases hm with
  | same => exact h
  | receive _ snapshot verified hv => exact h.receive hv
  | refuse i snapshot verified hc =>
    exact h.setCall hc rfl rfl rfl rfl fun _ hc' => by cases hc'
  | accept i snapshot verified q hc _ _ =>
    refine h.setCall hc rfl rfl rfl rfl fun c' hc' => ?_
    obtain rfl := Option.some.inj hc'
    refine ⟨rfl, rfl, fun q' hq' => ?_⟩
    obtain rfl := Option.some.inj hq'
    rfl
  | openHistory i now snapshot verified q history hc =>
    refine h.setCall hc rfl rfl rfl rfl fun c' hc' => ?_
    obtain rfl := Option.some.inj hc'
    exact ⟨rfl, rfl, fun q' hq' => h.proposed i _ q' hc hq'⟩
  | publish i snapshot verified view rest next hc hn =>
    simp only [settling, hc, Bool.or_eq_true, List.any_eq_true] at hg
    exact h.publish hc hn (hg.imp (fun ⟨j, _, hw⟩ => ⟨j, hw⟩) id)
  | cancel i c hc =>
    simp only [settling, hc, Option.all_some, Bool.or_eq_true, bne_iff_ne, ne_eq,
      List.all_eq_true] at hg
    exact h.cancel hc fun hrec => hg.resolve_left fun hne => hne hrec
  | record => exact ⟨h.contents, h.proposed, h.views⟩

/-- Between the calls, the views are those of the recorded snapshot. -/
def Settled (env : Installation) (p : Process) : Prop :=
  p.calls.Idle → ∀ signed, p.controlTrustState.cachedSnapshot = some signed →
    ∃ verified, env.contents signed = some verified ∧ p.views = verified.views

theorem Shown.settled (h : p.Shown env) : p.Settled env := by
  intro hidle signed hs
  obtain ⟨verified, hv, hall⟩ := h.views signed hs
  refine ⟨verified, hv, Views.ext_agree fun view => (hall view).resolve_right ?_⟩
  rintro ⟨i, hw⟩
  obtain ⟨call, hc, -⟩ := writes_iff.mp hw
  simp [hidle.get_eq_none i] at hc

end Process

namespace Sys
variable {env : Installation} {disk : Disk} {s s' : Sys} {a : Action}

/-- A start is to find the recorded snapshot usable, or none recorded. -/
def settling (env : Installation) (s : Sys) (a : Action) : Bool :=
  match a, s.process with
  | .start installed now io, none =>
    match (loadInitial env s.disk installed now io).1 with
    | .ok loaded => loaded.state.cachedSnapshot.isNone || loaded.cached.isSome
    | .error _ => true
  | a, some p => p.settling env a
  | _, none => true

def Shown (env : Installation) (s : Sys) : Prop := ∀ p, s.process = some p → p.Shown env

theorem Shown.step (h : s.Shown env) (hg : s.settling env a = true)
    (hs : s.step env a = some s') : s'.Shown env := by
  rcases step_cases hs with ⟨installed, now, io, rfl, hs⟩ | ⟨rfl, rfl⟩ | ⟨k, ok, rfl, hs⟩ |
    ⟨i, rfl, hs⟩ | ⟨p, p', hp, hm, rfl⟩
  · obtain ⟨hp, ⟨loaded, hl, rfl⟩ | rfl⟩ := start_cases hs
    · intro p hp'
      obtain rfl := Option.some.inj hp'
      simp only [settling, hp, hl, Bool.or_eq_true, Option.isNone_iff_eq_none] at hg
      exact .load hl hg _
    · exact fun p hp' => absurd hp' (by simp [hp])
  · exact fun _ hp => by cases hp
  · obtain ⟨p, task, hp, -, rfl⟩ := commit_cases hs
    intro p' hp'
    obtain rfl := Option.some.inj hp'
    exact (h p hp).complete task ok k
  · obtain ⟨p, snapshot, verified, q, history, hp, ⟨hc, rfl⟩ | ⟨hc, rfl⟩⟩ := resume_cases hs
    · intro p' hp'
      obtain rfl := Option.some.inj hp'
      exact (h p hp).resume hc
    · intro p' hp'
      obtain rfl := Option.some.inj hp'
      exact (h p hp).setCall hc rfl rfl rfl rfl fun _ hc' => by cases hc'
  · intro p'' hp''
    obtain rfl := Option.some.inj hp''
    have hg : p.settling env a = true := by
      cases a <;> simpa [settling, hp] using hg
    exact (h p hp).moves hg hm

end Sys

variable {env : Installation} {disk : Disk} {s : Sys}

/-- The runtime view is the recorded snapshot, as long as no view of it is written over or left
unwritten. -/
theorem settled_of_settling
    (h : (machine env disk).ReachableWhere (fun s a => s.settling env a = true) s) :
    ∀ p, s.process = some p → p.Settled env := by
  have hshown : s.Shown env :=
    h.invariant (P := fun s => s.Shown env) (fun _ hp => (by cases hp))
      fun _ _ _ _ hi hg hs => hi.step hg hs
  exact fun p hp => (hshown p hp).settled

/-- A second call waits while the first publishes. -/
theorem settled_overlap :
    ∃ s, (machine sampleInstallation {}).execWhere (fun s a => s.settling sampleInstallation a = true)
      [.start sampleTrust 1000 {}, sampleDelivery "05", .lock 0, .openHistory 0 1000,
        .commit 0 true, .resume 0, sampleDelivery "06", .lock 1, .openHistory 1 1000, .publish 0,
        .publish 0, .commit 0 true, .publish 0, .resume 1, .publish 1, .publish 1, .publish 1] =
        some s ∧
    ∀ p, s.process = some p → p.Settled sampleInstallation := by
  have hrun : ((machine sampleInstallation {}).execWhere
      (fun s a => s.settling sampleInstallation a = true)
      [.start sampleTrust 1000 {}, sampleDelivery "05", .lock 0, .openHistory 0 1000,
        .commit 0 true, .resume 0, sampleDelivery "06", .lock 1, .openHistory 1 1000, .publish 0,
        .publish 0, .commit 0 true, .publish 0, .resume 1, .publish 1, .publish 1, .publish 1]).map
      (fun s => s.process.isSome) = some true := by
    decide +kernel
  obtain ⟨s, hs, -⟩ := Option.map_eq_some_iff.mp hrun
  exact ⟨s, hs, settled_of_settling (Machine.reachableWhere_of_execWhere hs)⟩

/-- The call that accepted generation 5 publishes after the one that accepted generation 6. -/
def latePublication : List Action :=
  [.start sampleTrust 1000 {}, sampleDelivery "05", .lock 0, .openHistory 0 1000, .commit 0 true,
    .resume 0, sampleDelivery "06", .lock 1, .openHistory 1 1000, .commit 0 true, .resume 1,
    .publish 1, .publish 1, .publish 1, .publish 0, .publish 0, .publish 0]

/-- The call that accepted generation 5 is cancelled before it publishes. The next delivery of
generation 5 changes nothing. -/
def cancelledPublication : List Action :=
  [.start sampleTrust 1000 {}, sampleDelivery "05", .lock 0, .openHistory 0 1000, .commit 0 true,
    .resume 0, .cancel 0, sampleDelivery "05", .lock 1]

theorem not_settled_of_reachable :
    (∃ s p, (machine sampleInstallation {}).exec latePublication = some s ∧
      s.process = some p ∧ p.calls.Idle ∧
      p.controlTrustState.cachedSnapshot = some (sampleSnapshot "06") ∧
      p.views.directory.generation = 5) ∧
    (∃ s p, (machine sampleInstallation {}).exec cancelledPublication = some s ∧
      s.process = some p ∧ p.calls.Idle ∧
      p.controlTrustState.cachedSnapshot = some (sampleSnapshot "05") ∧
      p.views.directory = {}) ∧
    ¬ ∀ s, (machine sampleInstallation {}).Reachable s →
      ∀ p, s.process = some p → p.Settled sampleInstallation := by
  have hlate : ((machine sampleInstallation {}).exec latePublication).map (fun s =>
      s.process.map fun p => (decide p.calls.Idle, p.controlTrustState.cachedSnapshot,
        p.views.directory.generation)) = some (some (true, some (sampleSnapshot "06"), 5)) := by
    decide +kernel
  have hcancelled : ((machine sampleInstallation {}).exec cancelledPublication).map (fun s =>
      s.process.map fun p => (decide p.calls.Idle, p.controlTrustState.cachedSnapshot,
        p.views.directory)) = some (some (true, some (sampleSnapshot "05"), {})) := by
    decide +kernel
  have hcontents : (sampleInstallation.contents (sampleSnapshot "06")).map
      (·.views.directory.generation) = some 6 := by
    decide +kernel
  obtain ⟨s, hs, heq⟩ := Option.map_eq_some_iff.mp hlate
  obtain ⟨p, hp, heq⟩ := Option.map_eq_some_iff.mp heq
  obtain ⟨t, ht, heq'⟩ := Option.map_eq_some_iff.mp hcancelled
  obtain ⟨q, hq, heq'⟩ := Option.map_eq_some_iff.mp heq'
  simp only [Prod.mk.injEq, decide_eq_true_eq] at heq heq'
  obtain ⟨hidle, hcached, hgen⟩ := heq
  refine ⟨⟨s, p, hs, hp, hidle, hcached, hgen⟩, ⟨t, q, ht, hq, heq'⟩, fun hall => ?_⟩
  obtain ⟨v, hv, hviews⟩ := hall s (Machine.reachable_of_exec hs) p hp hidle _ hcached
  simp [hv, ← hviews, hgen] at hcontents

end FlowSplice.Control
