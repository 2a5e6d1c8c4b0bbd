import Mathlib.Data.Nat.Basic
import FlowSplice.Lib.HighWater
import FlowSplice.Control.Apply

/-! Anti-rollback of control state. The mark of a Travel installation refines a high-water mark
with a durable copy, as long as no commit writes a mark below the one in memory. -/
namespace FlowSplice.Control

/-- What is compared of a control snapshot. -/
structure Mark where
  trustGeneration : ℕ
  signerEpoch : ℕ
  generation : ℕ
  digest : String
deriving DecidableEq, Repr

/-- The trust generation rises, and so does epoch and generation; the same epoch and generation
have one digest. -/
instance : LE Mark where
  le a b := a.trustGeneration ≤ b.trustGeneration ∧
    (a.signerEpoch < b.signerEpoch ∨ a.signerEpoch = b.signerEpoch ∧
      (a.generation < b.generation ∨ a.generation = b.generation ∧ a.digest = b.digest))

theorem Mark.le_iff {a b : Mark} : a ≤ b ↔ a.trustGeneration ≤ b.trustGeneration ∧
    (a.signerEpoch < b.signerEpoch ∨ a.signerEpoch = b.signerEpoch ∧
      (a.generation < b.generation ∨ a.generation = b.generation ∧ a.digest = b.digest)) := Iff.rfl

instance : Preorder Mark where
  le_refl _ := Mark.le_iff.mpr ⟨le_rfl, .inr ⟨rfl, .inr ⟨rfl, rfl⟩⟩⟩
  le_trans a b c hab hbc := by
    obtain ⟨ht, hab⟩ := Mark.le_iff.mp hab
    obtain ⟨ht', hbc⟩ := Mark.le_iff.mp hbc
    refine Mark.le_iff.mpr ⟨ht.trans ht', ?_⟩
    rcases hab with he | ⟨he, hg | ⟨hg, hd⟩⟩ <;> rcases hbc with he' | ⟨he', hg' | ⟨hg', hd'⟩⟩
    all_goals first
      | exact .inl (by omega)
      | exact .inr ⟨by omega, .inl (by omega)⟩
      | exact .inr ⟨he.trans he', .inr ⟨hg.trans hg', hd.trans hd'⟩⟩

instance : DecidableRel (α := Mark) (· ≤ ·) := fun _ _ => decidable_of_iff _ Mark.le_iff.symm

def VerifiedControlSnapshot.mark (verified : VerifiedControlSnapshot) : Mark where
  trustGeneration := verified.trust.generation
  signerEpoch := verified.payload.signerEpoch
  generation := verified.payload.generation
  digest := verified.digestSha256

namespace ControlTrustState
variable {state proposed : ControlTrustState} {verified : VerifiedControlSnapshot}

def mark (state : ControlTrustState) : Mark where
  trustGeneration := state.trustGeneration
  signerEpoch := state.signerEpoch
  generation := state.snapshotGeneration
  digest := state.snapshotDigestSha256.getD ""

@[simp] theorem mark_cachedSnapshot (snapshot : Option SignedControlSnapshot) :
    { state with cachedSnapshot := snapshot }.mark = state.mark := rfl

theorem mark_le_of_accept (h : state.accept verified = .ok (true, proposed)) :
    state.mark ≤ proposed.mark ∧ proposed.mark = verified.mark ∧
      proposed.deploymentId.isSome := by
  unfold accept at h
  split at h
  · cases h
  · split_ifs at h with hid ht hc he hg hsame
    · simp at h
    · simp at h
    · obtain rfl := (Prod.mk.inj (Except.ok.inj h)).2
      refine ⟨Mark.le_iff.mpr ⟨Nat.le_of_not_lt ht, ?_⟩, rfl, rfl⟩
      rcases Nat.lt_or_eq_of_le (Nat.le_of_not_lt he) with he | he
      · exact .inl he
      · have hlt : state.snapshotGeneration < verified.payload.generation := by omega
        exact .inr ⟨he, .inl hlt⟩

theorem mark_le_install (h : state.deploymentId.isSome) (trust : DeploymentTrust)
    (trustDigest : String) : state.mark ≤ (state.install trust trustDigest).mark := by
  unfold install
  split_ifs with ht
  · have hid : ¬ state.deploymentId.isNone := by simpa [Option.isSome_iff_ne_none] using h
    have hlt : state.trustGeneration < trust.generation := ht.resolve_right hid
    exact Mark.le_iff.mpr ⟨hlt.le, .inr ⟨rfl, .inr ⟨rfl, rfl⟩⟩⟩
  · exact le_rfl

theorem install_deploymentId (trust : DeploymentTrust) (trustDigest : String) :
    (state.install trust trustDigest).deploymentId.isSome := by
  unfold install
  split_ifs with ht
  · rfl
  · cases hid : state.deploymentId with
    | none => exact absurd (.inr (by simp [hid])) ht
    | some id => rfl

theorem mark_of_usableCache {env : Installation} {now : ℕ}
    (h : state.usableCache env now = some verified) : verified.mark = state.mark := by
  have h := (Option.filter_eq_some_iff.mp h).2
  simp only [matchesHighWater, Bool.and_eq_true, beq_iff_eq] at h
  obtain ⟨-, ⟨⟨⟨ht, -⟩, he⟩, hg⟩, hd⟩ := h
  simp [VerifiedControlSnapshot.mark, mark, ht, he, hg, hd]

end ControlTrustState

namespace Call

/-- The state that the call knows to be stored, and has not taken over yet. -/
def committed (call : Call) : Option ControlTrustState :=
  match call.phase with
  | .committing proposed _ (some true) => some proposed
  | _ => none

theorem proposed_of_committed {call : Call} {q : ControlTrustState} (h : call.committed = some q) :
    call.proposed = some q := by
  unfold committed at h
  unfold proposed
  split at h
  · next q' history hphase => rw [hphase, ← h]
  · cases h

/-- The call has spawned the commit of this state. -/
def Spawned (call : Call) (proposed : ControlTrustState) : Prop :=
  match call.phase with
  | .verified => False
  | .accepted _ => False
  | .committing proposed' _ _ => proposed' = proposed
  | .publishing _ _ => True

end Call

namespace Process
variable {env : Installation} {p p' : Process} {a : Action} {i : ℕ} {call : Option Call}
  {stored : Option ControlTrustState}

/-- What holds of a call that is in progress. -/
structure Fits (p : Process) (stored : Option ControlTrustState) (i : ℕ) (call : Call) :
    Prop where
  holder : call.proposed.isSome → p.controlLock = some i
  proposed : ∀ q, call.proposed = some q → p.controlTrustState.mark ≤ q.mark ∧
    q.mark = call.verified.mark ∧ q.deploymentId.isSome
  spawned : ∀ q history, .control i q history ∈ p.blocking → call.Spawned q
  stored : ∀ q, call.committed = some q →
    ∃ d, stored = some d ∧ d.deploymentId.isSome ∧ q.mark ≤ d.mark

/-- What holds of a process, where `stored` is the state on disk. -/
structure Held (p : Process) (stored : Option ControlTrustState) : Prop where
  deployment : p.controlTrustState.deploymentId.isSome
  calls : ∀ i call, p.calls.get i = some call → p.Fits stored i call
  blocking : ∀ i q history, .control i q history ∈ p.blocking →
    i < p.calls.next ∧ q.deploymentId.isSome

/-- A call that neither waits for the lock nor holds it asks for nothing. -/
theorem Fits.of_free {c : Call} (hp : c.proposed = none) (hq : c.committed = none)
    (hs : ∀ q history, .control i q history ∈ p.blocking → c.Spawned q) : p.Fits stored i c where
  holder h := by simp [hp] at h
  proposed q h := by simp [hp] at h
  spawned := hs
  stored q h := by simp [hq] at h

theorem Held.setCall (h : p.Held stored) (hcall : ∀ c, call = some c → p.Fits stored i c) :
    (p.setCall i call).Held stored where
  deployment := h.deployment
  calls j c hj := by
    rcases Slots.get_set_cases hj with ⟨rfl, hc, -⟩ | ⟨-, hj⟩
    · have hf := hcall c hc
      exact ⟨hf.holder, hf.proposed, hf.spawned, hf.stored⟩
    · have hf := h.calls j c hj
      exact ⟨hf.holder, hf.proposed, hf.spawned, hf.stored⟩
  blocking j q history hm := by
    simpa [Process.setCall, Slots.next, Slots.set] using h.blocking j q history hm

theorem Held.clearCall (h : p.Held stored) (i : ℕ) : (p.setCall i none).Held stored :=
  h.setCall fun _ hc => by cases hc

/-- A call that ends gives up its locks; no other call holds them. -/
theorem Held.release (h : p.Held stored) (i : ℕ) : ((p.release i).setCall i none).Held stored where
  deployment := h.deployment
  calls j c hj := by
    rcases Slots.get_set_cases hj with ⟨rfl, hc, -⟩ | ⟨hne, hj⟩
    · cases hc
    · have hf := h.calls j c hj
      refine ⟨fun hp => ?_, hf.proposed, hf.spawned, hf.stored⟩
      have hl := hf.holder hp
      have hi : p.controlLock ≠ some i := by
        rw [hl]
        exact fun he => hne (Option.some.inj he)
      exact (if_neg hi).trans hl
  blocking j q history hm := by
    simpa [Process.setCall, Process.release, Slots.next, Slots.set] using h.blocking j q history hm

/-- Two calls do not hold `control_trust_state` at a time. -/
theorem Held.eq_of_proposed {j : ℕ} {c c' : Call} (h : p.Held stored)
    (hc : p.calls.get i = some c) (hc' : p.calls.get j = some c') (hp : c.proposed.isSome)
    (hp' : c'.proposed.isSome) : i = j :=
  Option.some.inj (((h.calls i c hc).holder hp).symm.trans ((h.calls j c' hc').holder hp'))

theorem Held.accept {c : Call} (h : p.Held stored) (hc : p.calls.get i = some c)
    (hphase : c.phase = .verified) (hl : p.controlLock = none) {q : ControlTrustState}
    (ha : p.controlTrustState.accept c.verified = .ok (true, q)) :
    ({ p with controlLock := some i }.setCall i
      (some { c with phase := .accepted { q with cachedSnapshot := some c.snapshot } })).Held
      stored := by
  have hlocked : { p with controlLock := some i }.Held stored := by
    refine ⟨h.deployment, fun j c' hj => ?_, h.blocking⟩
    have hf := h.calls j c' hj
    exact ⟨fun hp => absurd (hf.holder hp) (by simp [hl]), hf.proposed, hf.spawned, hf.stored⟩
  obtain ⟨hle, hmark, hid⟩ := ControlTrustState.mark_le_of_accept ha
  refine hlocked.setCall fun c' hc' => ?_
  obtain rfl := Option.some.inj hc'
  refine ⟨fun _ => rfl, fun q' hq' => ?_, fun q' history hm => ?_, fun q' hq' => by cases hq'⟩
  · obtain rfl := Option.some.inj hq'
    exact ⟨hle, hmark, hid⟩
  · have hs := (h.calls i c hc).spawned q' history hm
    simp [Call.Spawned, hphase] at hs

theorem Held.openHistory {c : Call} {q : ControlTrustState} (h : p.Held stored)
    (hc : p.calls.get i = some c) (hphase : c.phase = .accepted q)
    (history : List RelayHistoryRecord) :
    ({ p with
      historyLock := some i
      blocking := p.blocking ++ [BlockingTask.control i q history] }.setCall i
        (some { c with phase := .committing q history none })).Held stored := by
  have hf := h.calls i c hc
  have hq : c.proposed = some q := by simp [Call.proposed, hphase]
  have hnone : ∀ q' history', .control i q' history' ∈ p.blocking → False := fun q' history' hm => by
    have hs := hf.spawned q' history' hm
    simp [Call.Spawned, hphase] at hs
  refine ⟨h.deployment, fun j c' hj => ?_, fun j q' history' hm => ?_⟩
  · rcases Slots.get_set_cases hj with ⟨rfl, hc', -⟩ | ⟨hne, hj⟩
    · obtain rfl := Option.some.inj hc'
      refine ⟨fun _ => hf.holder (by simp [hq]), fun q' hq' => ?_, fun q' history' hm => ?_,
        fun q' hq' => by cases hq'⟩
      · obtain rfl := Option.some.inj hq'
        exact hf.proposed q hq
      · rcases List.mem_append.mp hm with hm | hm
        · exact (hnone q' history' hm).elim
        · simp only [List.mem_singleton, BlockingTask.control.injEq] at hm
          exact hm.2.1.symm
    · have hf' := h.calls j c' hj
      refine ⟨hf'.holder, hf'.proposed, fun q' history' hm => ?_, hf'.stored⟩
      rcases List.mem_append.mp hm with hm | hm
      · exact hf'.spawned q' history' hm
      · simp only [List.mem_singleton, BlockingTask.control.injEq] at hm
        exact absurd hm.1 hne
  · have hnext : ∀ k, k < p.calls.next →
        k < (p.calls.set i (some { c with phase := .committing q history none })).next := by
      intro k hk
      simpa [Slots.next, Slots.set] using hk
    rcases List.mem_append.mp hm with hm | hm
    · have hb := h.blocking j q' history' hm
      exact ⟨hnext j hb.1, hb.2⟩
    · simp only [List.mem_singleton, BlockingTask.control.injEq] at hm
      obtain ⟨rfl, rfl, -⟩ := hm
      exact ⟨hnext j (Slots.lt_next_of_get hc), (hf.proposed _ hq).2.2⟩

theorem Held.receive (h : p.Held stored) (snapshot : SignedControlSnapshot)
    (verified : VerifiedControlSnapshot) :
    { p with calls := p.calls.push { snapshot := snapshot, verified := verified } }.Held stored := by
  refine ⟨h.deployment, fun j c hj => ?_, fun j q history hm => ?_⟩
  · rcases Slots.get_push_cases hj with ⟨rfl, rfl⟩ | ⟨-, hj⟩
    · refine .of_free rfl rfl fun q history hm => ?_
      exact absurd (h.blocking _ q history hm).1 (Nat.lt_irrefl _)
    · have hf := h.calls j c hj
      exact ⟨hf.holder, hf.proposed, hf.spawned, hf.stored⟩
  · have hb := h.blocking j q history hm
    refine ⟨?_, hb.2⟩
    simpa [Slots.next, Slots.push] using Nat.lt_succ_of_lt hb.1

theorem Held.record (h : p.Held stored) (history records : List RelayHistoryRecord) :
    { p with
      relayHistory := history
      blocking := p.blocking ++ records.map BlockingTask.relay }.Held stored := by
  have hmem : ∀ {j q history'}, .control j q history' ∈ p.blocking ++ records.map .relay →
      .control j q history' ∈ p.blocking := fun hm => by simpa using hm
  refine ⟨h.deployment, fun j c hj => ?_, fun j q history' hm => h.blocking j q history' (hmem hm)⟩
  have hf := h.calls j c hj
  exact ⟨hf.holder, hf.proposed, fun q history' hm => hf.spawned q history' (hmem hm), hf.stored⟩

theorem Held.moves (h : p.Held stored) (hm : p.Moves env a p') : p'.Held stored := by
  cases hm with
  | same => exact h
  | receive _ snapshot verified _ => exact h.receive snapshot verified
  | refuse i _ _ _ => exact h.clearCall i
  | accept i snapshot verified q hc hl ha => exact h.accept hc rfl hl ha
  | openHistory i now snapshot verified q history hc => exact h.openHistory hc rfl history
  | publish i snapshot verified view rest next hc hn =>
    have hv : { p with views := p.views.write view verified.views }.Held stored :=
      ⟨h.deployment, fun j c hj =>
        ⟨(h.calls j c hj).holder, (h.calls j c hj).proposed, (h.calls j c hj).spawned,
          (h.calls j c hj).stored⟩, h.blocking⟩
    refine hv.setCall fun c hc' => ?_
    rcases hn with ⟨-, rfl⟩ | ⟨view', rest', -, rfl⟩
    · cases hc'
    · obtain rfl := Option.some.inj hc'
      exact .of_free rfl rfl fun _ _ _ => trivial
  | cancel i c hc => exact h.release i
  | record _ history records => exact h.record history records

theorem Moves.controlTrustState_eq (hm : p.Moves env a p') :
    p'.controlTrustState = p.controlTrustState := by
  cases hm <;> rfl

/-- Whether a call awaits its commit. -/
def awaits (p : Process) (i : ℕ) : Bool :=
  match p.calls.get i with
  | some ⟨_, _, .committing _ _ none⟩ => true
  | _ => false

/-- The state in memory, or the stored one that a call is about to take over. -/
def floor (p : Process) : ControlTrustState :=
  ((p.controlLock.bind p.calls.get).bind Call.committed).getD p.controlTrustState

theorem Held.floor_eq {c : Call} (h : p.Held stored) (hc : p.calls.get i = some c)
    (hp : c.proposed.isSome) : p.floor = c.committed.getD p.controlTrustState := by
  simp [floor, (h.calls i c hc).holder hp, hc]

theorem Held.le_floor (h : p.Held stored) : p.controlTrustState.mark ≤ p.floor.mark := by
  unfold floor
  cases hq : (p.controlLock.bind p.calls.get).bind Call.committed with
  | none => exact le_rfl
  | some q =>
    obtain ⟨c, hc, hcq⟩ := Option.bind_eq_some_iff.mp hq
    obtain ⟨i, -, hc⟩ := Option.bind_eq_some_iff.mp hc
    exact ((h.calls i c hc).proposed q (Call.proposed_of_committed hcq)).1

/-- The commit that a call awaits writes what the call proposes. -/
theorem Held.floor_le_of_awaits {q : ControlTrustState} {history : List RelayHistoryRecord}
    (h : p.Held stored) (hm : .control i q history ∈ p.blocking) (ha : p.awaits i) :
    p.floor.mark ≤ q.mark := by
  unfold awaits at ha
  split at ha
  · next snapshot verified q' history' hc =>
    have hf := h.calls i _ hc
    obtain rfl : q' = q := hf.spawned q history hm
    rw [h.floor_eq hc rfl]
    exact (hf.proposed q' rfl).1
  · cases ha

theorem Held.erase (h : p.Held stored) (k : ℕ) :
    { p with blocking := p.blocking.eraseIdx k }.Held stored := by
  have hmem : ∀ {task}, task ∈ p.blocking.eraseIdx k → task ∈ p.blocking :=
    fun hm => List.mem_of_mem_eraseIdx hm
  refine ⟨h.deployment, fun j c hj => ?_, fun j q history hm => h.blocking j q history (hmem hm)⟩
  have hf := h.calls j c hj
  exact ⟨hf.holder, hf.proposed, fun q history hm => hf.spawned q history (hmem hm), hf.stored⟩

theorem Held.store {q : ControlTrustState} (h : p.Held stored) (hq : q.deploymentId.isSome)
    (hle : p.floor.mark ≤ q.mark) : p.Held (some q) := by
  refine ⟨h.deployment, fun i c hc => ?_, h.blocking⟩
  have hf := h.calls i c hc
  refine ⟨hf.holder, hf.proposed, hf.spawned, fun q' hq' => ⟨q, rfl, hq, ?_⟩⟩
  have hfloor : p.floor = q' := by
    rw [h.floor_eq hc (by simp [Call.proposed_of_committed hq']), hq', Option.getD_some]
  rwa [hfloor] at hle

/-- The caller, if it still waits, knows how the commit of its own state went. -/
theorem Held.complete {q : ControlTrustState} {history : List RelayHistoryRecord}
    (h : p.Held stored) {ok : Bool} (hok : ok → stored = some q ∧ q.deploymentId.isSome)
    (hs : ∀ c, p.calls.get i = some c → c.Spawned q) :
    (p.complete (.control i q history) ok).Held stored := by
  unfold Process.complete
  dsimp only
  split
  · next snapshot verified q' history' hc =>
    obtain rfl : q' = q := hs _ hc
    have hf := h.calls i _ hc
    refine h.setCall fun c hc' => ?_
    obtain rfl := Option.some.inj hc'
    refine ⟨hf.holder, hf.proposed, hf.spawned, fun q'' hq'' => ?_⟩
    cases ok with
    | false => cases hq''
    | true =>
      obtain rfl : q' = q'' := Option.some.inj hq''
      obtain ⟨hst, hid⟩ := hok rfl
      exact ⟨q', hst, hid, le_rfl⟩
  · exact h

/-- No other call holds `control_trust_state` when one takes its own state over. -/
theorem Held.resume {c : Call} {q : ControlTrustState} (h : p.Held stored)
    (hc : p.calls.get i = some c) (hq : c.committed = some q)
    (history : List RelayHistoryRecord) (views : View) (rest : List View) :
    ({ p.release i with controlTrustState := q, relayHistory := history }.setCall i
      (some { c with phase := .publishing views rest })).Held stored := by
  have hprop := Call.proposed_of_committed hq
  have hf := h.calls i c hc
  refine ⟨(hf.proposed q hprop).2.2, fun j c' hj => ?_, fun j q' history' hm => ?_⟩
  · rcases Slots.get_set_cases hj with ⟨rfl, hc', -⟩ | ⟨hne, hj⟩
    · obtain rfl := Option.some.inj hc'
      exact .of_free rfl rfl fun _ _ _ => trivial
    · have hnone : c'.proposed = none := by
        by_contra hsome
        exact hne (h.eq_of_proposed hj hc (Option.isSome_iff_ne_none.mpr hsome) (by simp [hprop]))
      have hnone' : c'.committed = none := by
        by_contra hsome
        obtain ⟨q', hq'⟩ := Option.ne_none_iff_exists'.mp hsome
        simp [Call.proposed_of_committed hq'] at hnone
      exact .of_free hnone hnone' (h.calls j c' hj).spawned
  · simpa [Process.setCall, Process.release, Slots.next, Slots.set] using h.blocking j q' history' hm

theorem complete_controlTrustState (task : BlockingTask) (ok : Bool) :
    (p.complete task ok).controlTrustState = p.controlTrustState := by
  unfold Process.complete
  split
  · rfl
  · split <;> rfl

end Process

namespace Sys
variable {env : Installation} {disk : Disk} {s s' : Sys} {a : Action}

/-- A commit is in order when a call awaits it, or when what it writes is not older than what is
in memory or stored to be taken over. -/
def ordered (s : Sys) (a : Action) : Bool :=
  match a, s.process with
  | .commit k true, some p =>
    match p.blocking[k]? with
    | some (.control i proposed _) => p.awaits i || decide (p.floor.mark ≤ proposed.mark)
    | _ => true
  | _, _ => true

/-- What holds of a running process. -/
def Kept (s : Sys) : Prop := ∀ p, s.process = some p → p.Held s.disk.store.controlState

theorem floor_le_of_ordered {p : Process} {k i : ℕ} {q : ControlTrustState}
    {history : List RelayHistoryRecord} (hk : s.Kept) (hp : s.process = some p)
    (ht : p.blocking[k]? = some (.control i q history)) (hg : s.ordered (.commit k true) = true) :
    p.floor.mark ≤ q.mark := by
  simp only [ordered, hp, ht, Bool.or_eq_true, decide_eq_true_eq] at hg
  rcases hg with ha | hle
  · exact (hk p hp).floor_le_of_awaits (List.mem_of_getElem? ht) ha
  · exact hle

theorem Kept.commit {k : ℕ} {ok : Bool} (hk : s.Kept) (hg : s.ordered (.commit k ok) = true)
    (h : s.commit k ok = some s') : s'.Kept := by
  obtain ⟨p, task, hp, ht, rfl⟩ := commit_cases h
  intro p' hp'
  obtain rfl := Option.some.inj hp'
  have hheld := hk p hp
  cases task with
  | relay record =>
    have hstore : (if ok = true then { s.disk with
        store := (BlockingTask.relay record).applyImmediate s.disk.store } else
        s.disk).store.controlState = s.disk.store.controlState := by
      split_ifs <;> rfl
    exact hstore ▸ hheld.erase k
  | control i q history =>
    have hmem := List.mem_of_getElem? ht
    have hid := (hheld.blocking i q history hmem).2
    have hs : ∀ c, p.calls.get i = some c → c.Spawned q :=
      fun c hc => (hheld.calls i c hc).spawned q history hmem
    cases ok with
    | false => exact (hheld.erase k).complete (fun hok => by cases hok) hs
    | true =>
      have hle := floor_le_of_ordered hk hp ht hg
      have hstored := (hheld.erase k).store hid hle
      have hdisk : (BlockingTask.control i q history).applyImmediate s.disk.store =
        s.disk.store.commitSnapshot q history := rfl
      simp only [if_true, hdisk, Store.commitSnapshot_controlState]
      exact hstored.complete (fun _ => ⟨rfl, hid⟩) hs

theorem Kept.resume {i : ℕ} (hk : s.Kept) (h : s.resume i = some s') : s'.Kept := by
  obtain ⟨p, snapshot, verified, q, history, hp, ⟨hc, rfl⟩ | ⟨hc, rfl⟩⟩ := resume_cases h
  · intro p' hp'
    obtain rfl := Option.some.inj hp'
    exact (hk p hp).resume hc rfl history .deploymentTrust [.directory, .catalog]
  · intro p' hp'
    obtain rfl := Option.some.inj hp'
    exact (hk p hp).release i

theorem Kept.start {installed : SignedDeploymentTrust} {now : ℕ} {io : LoadIo}
    (h : s.start env installed now io = some s') : s'.Kept := by
  obtain ⟨hp, ⟨loaded, hl, rfl⟩ | rfl⟩ := start_cases h
  · intro p hp'
    obtain rfl := Option.some.inj hp'
    rcases loadInitial_cases env s.disk installed now io with
      ⟨error, he⟩ | ⟨trust, trustDigest, state, -, -, heq⟩
    · simp [he] at hl
    · rcases commitInitial_cases env s.disk (state.install trust trustDigest) trust now io with
        ⟨error, he⟩ | ⟨-, hloaded⟩
      · simp [heq, he] at hl
      · rw [heq] at hl
        obtain rfl := hloaded loaded hl
        exact ⟨ControlTrustState.install_deploymentId trust trustDigest, fun i c hc => (by cases hc),
          fun i q history hm => (by cases hm)⟩
  · intro p hp'
    exact absurd hp' (by simp [hp])

theorem Kept.step (hk : s.Kept) (hg : s.ordered a = true) (h : s.step env a = some s') :
    s'.Kept := by
  rcases step_cases h with ⟨installed, now, io, rfl, h⟩ | ⟨rfl, rfl⟩ | ⟨k, ok, rfl, h⟩ |
    ⟨i, rfl, h⟩ | ⟨p, p', hp, hm, rfl⟩
  · exact Kept.start h
  · exact fun _ hp => by cases hp
  · exact hk.commit hg h
  · exact hk.resume h
  · intro p'' hp''
    obtain rfl := Option.some.inj hp''
    exact (hk p hp).moves hm

/-- The marks of a system: of the snapshots current one after the other, in memory and on disk.
A state without a deployment has not been started from yet. -/
def marks (s : Sys) : HighWater.State Mark where
  log := s.current.map (·.mark)
  memory := s.process.map (·.controlTrustState.mark)
  durable := (s.disk.store.controlState.filter (·.deploymentId.isSome)).map (·.mark)

/-- A load leaves the mark on disk alone or raises it. -/
theorem marks_loadInitial (env : Installation) (s : Sys) (installed : SignedDeploymentTrust)
    (now : ℕ) (io : LoadIo) :
    (∃ error, loadInitial env s.disk installed now io = (.error error, s.disk)) ∨
    ∃ state, (loadInitial env s.disk installed now io).2.store.controlState = some state ∧
      state.deploymentId.isSome ∧ (∀ d, s.marks.durable = some d → d ≤ state.mark) ∧
      ∀ loaded, (loadInitial env s.disk installed now io).1 = .ok loaded →
        loaded.state = state ∧ ∀ v, loaded.cached = some v → v.mark = state.mark := by
  rcases loadInitial_cases env s.disk installed now io with
    he | ⟨trust, trustDigest, state, -, hstate, heq⟩
  · exact .inl he
  · rcases commitInitial_cases env s.disk (state.install trust trustDigest) trust now io with
      ⟨error, he⟩ | ⟨hstored, hloaded⟩
    · exact .inl ⟨error, heq.trans he⟩
    · refine .inr ⟨state.install trust trustDigest, by rw [heq, hstored],
        ControlTrustState.install_deploymentId trust trustDigest, fun d hd => ?_, fun loaded hl => ?_⟩
      · obtain ⟨old, hold, rfl⟩ := Option.map_eq_some_iff.mp hd
        obtain ⟨hold, hid⟩ := Option.filter_eq_some_iff.mp hold
        obtain rfl : old = state := by
          simpa [Disk.controlState, hold] using hstate
        exact ControlTrustState.mark_le_install hid trust trustDigest
      · rw [heq] at hl
        obtain rfl := hloaded loaded hl
        exact ⟨rfl, fun v hv => ControlTrustState.mark_of_usableCache hv⟩

theorem marks_start {installed : SignedDeploymentTrust} {now : ℕ} {io : LoadIo}
    (h : s.start env installed now io = some s') : HighWater.Steps s.marks s'.marks := by
  obtain ⟨hp, hcase⟩ := start_cases h
  have hmem : s.marks.memory = none := by simp [marks, hp]
  rcases marks_loadInitial env s installed now io with
    ⟨error, he⟩ | ⟨state, hstored, hid, hle, hloaded⟩
  · rcases hcase with ⟨loaded, hl, rfl⟩ | rfl
    · simp [he] at hl
    · rw [he]
  · have hdurable : ((loadInitial env s.disk installed now io).2.store.controlState.filter
        (·.deploymentId.isSome)).map (·.mark) = some state.mark := by
      simp [hstored, Option.filter, hid]
    rcases hcase with ⟨loaded, hl, rfl⟩ | rfl
    · obtain ⟨hst, hcached⟩ := hloaded loaded hl
      have hrec : HighWater.Steps s.marks
          { s.marks with memory := some state.mark, durable := some state.mark } :=
        .single (.recover state.mark hle)
      cases hc : loaded.cached with
      | none =>
        convert hrec using 1
        simp [marks, hdurable, Process.load, hst]
      | some v =>
        refine hrec.tail ?_
        have hnote := HighWater.Step.note (s := { s.marks with
          memory := some state.mark, durable := some state.mark }) state.mark rfl
        convert hnote using 1
        simp [marks, hdurable, Process.load, hst, hcached v hc]
    · have hstep := HighWater.Step.restore state.mark hmem hle
      refine .single ?_
      convert hstep using 1
      simp [marks, hdurable]

theorem marks_commit {k : ℕ} {ok : Bool} (hk : s.Kept) (hg : s.ordered (.commit k ok) = true)
    (h : s.commit k ok = some s') : HighWater.Steps s.marks s'.marks := by
  obtain ⟨p, task, hp, ht, rfl⟩ := commit_cases h
  have hmem : s.marks.memory = some p.controlTrustState.mark := by simp [marks, hp]
  by_cases hok : ok = true ∧ ∃ i q history, task = .control i q history
  · obtain ⟨rfl, i, q, history, rfl⟩ := hok
    have hid := ((hk p hp).blocking i q history (List.mem_of_getElem? ht)).2
    have hle := (hk p hp).le_floor.trans (floor_le_of_ordered hk hp ht hg)
    refine .single ?_
    convert HighWater.Step.persist _ q.mark hmem hle using 1
    simp [marks, BlockingTask.applyImmediate, Process.complete_controlTrustState, Option.filter,
      hid, hp]
  · have hstore : (if ok = true then { s.disk with store := task.applyImmediate s.disk.store }
        else s.disk).store.controlState = s.disk.store.controlState := by
      cases ok with
      | false => rfl
      | true =>
        cases task with
        | relay record => rfl
        | control i q history => exact absurd ⟨rfl, i, q, history, rfl⟩ hok
    have heq : s.marks = Sys.marks { s with
        disk := if ok then { s.disk with store := task.applyImmediate s.disk.store } else s.disk
        process := some ({ p with blocking := p.blocking.eraseIdx k }.complete task ok) } := by
      simp only [marks, hstore, Option.map_some, Process.complete_controlTrustState, hp]
    exact heq ▸ .refl

theorem marks_resume {i : ℕ} (hk : s.Kept) (h : s.resume i = some s') :
    HighWater.Steps s.marks s'.marks := by
  obtain ⟨p, snapshot, verified, q, history, hp, ⟨hc, rfl⟩ | ⟨hc, rfl⟩⟩ := resume_cases h
  · have hf := (hk p hp).calls i _ hc
    obtain ⟨hle, hmark, -⟩ := hf.proposed q rfl
    obtain ⟨d, hd, hid, hqd⟩ := hf.stored q rfl
    refine .single ?_
    have hmem : s.marks.memory = some p.controlTrustState.mark := by simp [marks, hp]
    have hdur : s.marks.durable = some d.mark := by simp [marks, hd, Option.filter, hid]
    convert HighWater.Step.adopt _ d.mark q.mark hmem hdur hle hqd using 1
    simp [marks, Process.setCall, hmark]
  · have heq : s.marks = Sys.marks { s with process := some ((p.release i).setCall i none) } := by
      simp [marks, hp, Process.release, Process.setCall]
    exact heq ▸ .refl

/-- The model refines the mark with a durable copy. -/
theorem marks_step (hk : s.Kept) (hg : s.ordered a = true) (h : s.step env a = some s') :
    HighWater.Steps s.marks s'.marks := by
  rcases step_cases h with ⟨installed, now, io, rfl, h⟩ | ⟨rfl, rfl⟩ | ⟨k, ok, rfl, h⟩ |
    ⟨i, rfl, h⟩ | ⟨p, p', hp, hm, rfl⟩
  · exact marks_start h
  · exact .single .lose
  · exact marks_commit hk hg h
  · exact marks_resume hk h
  · have heq : s.marks = Sys.marks { s with process := some p' } := by
      simp [marks, hp, hm.controlTrustState_eq]
    exact heq ▸ .refl

theorem inv_of_reachable
    (h : (machine env disk).ReachableWhere (fun s a => s.ordered a = true) s) :
    s.Kept ∧ HighWater.Inv s.marks :=
  h.invariant (P := fun s => s.Kept ∧ HighWater.Inv s.marks)
    ⟨fun _ hp => (by cases hp), HighWater.Inv.initial _⟩
    fun _ _ _ _ hi hg hs => ⟨hi.1.step hg hs, hi.2.steps (marks_step hi.1 hg hs)⟩

end Sys

/-- What `newer` says does not roll back what `older` says. -/
def VerifiedControlSnapshot.Follows (older newer : VerifiedControlSnapshot) : Prop :=
  older.trust.generation ≤ newer.trust.generation ∧
    (older.payload.signerEpoch < newer.payload.signerEpoch ∨
      older.payload.signerEpoch = newer.payload.signerEpoch ∧
        older.payload.generation ≤ newer.payload.generation) ∧
    (older.payload.signerEpoch = newer.payload.signerEpoch →
      older.payload.generation = newer.payload.generation →
      older.digestSha256 = newer.digestSha256)

theorem VerifiedControlSnapshot.follows_of_mark_le {older newer : VerifiedControlSnapshot}
    (h : older.mark ≤ newer.mark) : older.Follows newer := by
  obtain ⟨ht, he | ⟨he, hg | ⟨hg, hd⟩⟩⟩ := Mark.le_iff.mp h
  · exact ⟨ht, .inl he, fun heq => absurd heq (Nat.ne_of_lt he)⟩
  · exact ⟨ht, .inr ⟨he, Nat.le_of_lt hg⟩, fun _ heq => absurd heq (Nat.ne_of_lt hg)⟩
  · exact ⟨ht, .inr ⟨he, Nat.le_of_eq hg⟩, fun _ _ => hd⟩

variable {env : Installation} {disk : Disk} {s : Sys}

/-- Control state is not rolled back, across restarts too, as long as no commit whose call was
cancelled comes after that of a newer snapshot. -/
theorem follows_of_ordered
    (h : (machine env disk).ReachableWhere (fun s a => s.ordered a = true) s) :
    s.current.Pairwise VerifiedControlSnapshot.Follows :=
  (List.pairwise_map.mp (Sys.inv_of_reachable h).2.rising).imp
    VerifiedControlSnapshot.follows_of_mark_le

/-- The first call is cancelled, and its commit runs before the next call proposes. -/
theorem follows_cancelled :
    ∃ s, (machine sampleInstallation {}).execWhere (fun s a => s.ordered a = true)
      [.start sampleTrust 1000 {}, sampleDelivery "05", .lock 0, .openHistory 0 1000, .cancel 0,
        .commit 0 true, sampleDelivery "06", .lock 1, .openHistory 1 1000, .commit 0 true,
        .resume 1, .stop, .start sampleTrust 1000 {}] = some s ∧
    s.current.map (·.payload.generation) = [6, 6] ∧
    s.current.Pairwise VerifiedControlSnapshot.Follows := by
  have hrun : ((machine sampleInstallation {}).execWhere (fun s a => s.ordered a = true)
      [.start sampleTrust 1000 {}, sampleDelivery "05", .lock 0, .openHistory 0 1000, .cancel 0,
        .commit 0 true, sampleDelivery "06", .lock 1, .openHistory 1 1000, .commit 0 true,
        .resume 1, .stop, .start sampleTrust 1000 {}]).map
      (fun s => s.current.map (·.payload.generation)) = some [6, 6] := by
    decide +kernel
  obtain ⟨s, hs, heq⟩ := Option.map_eq_some_iff.mp hrun
  exact ⟨s, hs, heq, follows_of_ordered (Machine.reachableWhere_of_execWhere hs)⟩

/-- The first call is cancelled, and its commit runs after the second snapshot was accepted. -/
def lateCommit : List Action :=
  [.start sampleTrust 1000 {}, sampleDelivery "05", .lock 0, .openHistory 0 1000, .cancel 0,
    sampleDelivery "06", .lock 1, .openHistory 1 1000, .commit 1 true, .resume 1, .commit 0 true,
    .stop, .start sampleTrust 1000 {}]

theorem not_follows_of_reachable :
    (∃ s, (machine sampleInstallation {}).exec lateCommit = some s ∧
      s.current.map (·.payload.generation) = [6, 5]) ∧
    ¬ ∀ s, (machine sampleInstallation {}).Reachable s →
      s.current.Pairwise VerifiedControlSnapshot.Follows := by
  have hrun : ((machine sampleInstallation {}).exec lateCommit).map
      (fun s => s.current.map fun v => (v.payload.signerEpoch, v.payload.generation)) =
        some [(1, 6), (1, 5)] := by
    decide +kernel
  obtain ⟨s, hs, heq⟩ := Option.map_eq_some_iff.mp hrun
  obtain ⟨v, rest, hv, hve, hrest⟩ := List.map_eq_cons_iff.mp heq
  obtain ⟨w, hw, hwe⟩ := List.map_eq_singleton_iff.mp hrest
  subst hw
  simp only [Prod.mk.injEq] at hve hwe
  refine ⟨⟨s, hs, by simp [hv, hve, hwe]⟩, fun hall => ?_⟩
  have hf := hall s (Machine.reachable_of_exec hs)
  rw [hv] at hf
  obtain ⟨-, he | ⟨-, hg⟩, -⟩ := List.rel_of_pairwise_cons hf (List.mem_singleton_self w)
  · omega
  · omega

end FlowSplice.Control
