import FlowSplice.Inbox.Home

/-! How long the records of the two enrollment inboxes of a Home are kept, and what the write of an
approval changes about it. -/
namespace FlowSplice.Inbox

/-- A record does not expire earlier than the one that it replaces, if there is one. -/
def NotEarlier {ρ : Type*} (expired : ρ → ℕ → Bool) (before : Option ρ) (after : ρ) : Prop :=
  ∀ record ∈ before, ∀ now, expired after now = true → expired record now = true

theorem notEarlier_of_expiresAt {ρ : Type*} {expired : ρ → ℕ → Bool} {expiresAt : ρ → ℕ}
    {before : Option ρ} {after : ρ}
    (h : ∀ record now, expired record now = true ↔ expiresAt record ≤ now) :
    NotEarlier expired before after ↔ ∀ record ∈ before, expiresAt record ≤ expiresAt after := by
  unfold NotEarlier
  simp only [h]
  constructor
  · intro hall record hrecord
    exact hall record hrecord _ le_rfl
  · intro hall record hrecord now hnow
    exact (hall record hrecord).trans hnow

/-! The inbox for Travels. -/

namespace RemoteEnrollmentInboxRecord
variable {record copy current : RemoteEnrollmentInboxRecord} {now : ℕ}

/-- When `prune_remote_enrollment_inbox_store` finds the record expired. -/
def expiresAt (record : RemoteEnrollmentInboxRecord) : ℕ :=
  match record.installedAtUnixSecs with
  | none => record.receivedAtUnixSecs + remoteEnrollmentPendingRetentionSecs
  | some installedAt => installedAt + remoteEnrollmentInstalledRetentionSecs

theorem expired_iff : record.expired now = true ↔ record.expiresAt ≤ now := by
  have hpending : 0 < remoteEnrollmentPendingRetentionSecs := by decide
  have hinstalled : 0 < remoteEnrollmentInstalledRetentionSecs := by decide
  unfold expired remoteEnrollmentInboxExpired expiresAt
  cases record.installedAtUnixSecs with
  | none =>
    simp only [decide_eq_true_eq]
    omega
  | some installedAt =>
    simp only [decide_eq_true_eq]
    omega

/-- A copy still stands for what the record has become: for the same record or an older one, or for
one that was installed within six days of its receipt. A pending record is kept six days longer than
an installed one. -/
def stands (copy current : RemoteEnrollmentInboxRecord) : Bool :=
  match copy.installedAtUnixSecs, current.installedAtUnixSecs with
  | none, none => decide (current.receivedAtUnixSecs ≤ copy.receivedAtUnixSecs)
  | none, some installedAt => decide (installedAt ≤ copy.receivedAtUnixSecs + 6 * 24 * 60 * 60)
  | some readAt, none => decide (current.receivedAtUnixSecs + 6 * 24 * 60 * 60 ≤ readAt)
  | some readAt, some installedAt => decide (installedAt ≤ readAt)

theorem expiresAt_le_iff (enrollment : TravelResponseEnvelope) :
    current.expiresAt ≤ (copy.approve enrollment).expiresAt ↔ copy.stands current = true := by
  have hpending : remoteEnrollmentPendingRetentionSecs = 7 * 24 * 60 * 60 := rfl
  have hinstalled : remoteEnrollmentInstalledRetentionSecs = 24 * 60 * 60 := rfl
  unfold expiresAt stands approve
  cases copy.installedAtUnixSecs with
  | none =>
    cases current.installedAtUnixSecs with
    | none => simp
    | some installedAt =>
      simp only [decide_eq_true_eq]
      omega
  | some readAt =>
    cases current.installedAtUnixSecs with
    | none =>
      simp only [decide_eq_true_eq]
      omega
    | some installedAt => simp

theorem notEarlier_iff {before : Option RemoteEnrollmentInboxRecord} :
    NotEarlier expired before record ↔ ∀ current ∈ before, current.expiresAt ≤ record.expiresAt :=
  notEarlier_of_expiresAt fun _ _ => expired_iff

theorem notEarlier_approve_iff {before : Option RemoteEnrollmentInboxRecord}
    (enrollment : TravelResponseEnvelope) :
    NotEarlier expired before (copy.approve enrollment) ↔ before.all copy.stands = true := by
  rw [notEarlier_iff, Option.all_eq_true]
  simp only [expiresAt_le_iff, Option.mem_def]

end RemoteEnrollmentInboxRecord

/-- What an approval has read is a value that the record had. -/
def Op.Read (past : List (Option RemoteEnrollmentInboxRecord)) : Op → Prop
  | .approving copy => some copy ∈ past
  | .writing .approval updated =>
    ∃ copy enrollment, some copy ∈ past ∧ updated = copy.approve enrollment
  | _ => True

theorem Op.Read.append {past later : List (Option RemoteEnrollmentInboxRecord)} {op : Op}
    (h : op.Read past) : op.Read (past ++ later) := by
  cases op with
  | approving copy => exact List.mem_append_left later h
  | writing cause updated =>
    cases cause with
    | approval =>
      obtain ⟨copy, enrollment, hmem, hupdated⟩ := h
      exact ⟨copy, enrollment, List.mem_append_left later hmem, hupdated⟩
    | submission => trivial
    | acknowledgement => trivial
  | _ => trivial

/-- The record is among its values, and approvals work on one of them. -/
structure Read (s : Sys) : Prop where
  record : s.record ∈ s.past
  ops : ∀ i p, s.ops.get i = some p → p.op.Read s.past

namespace Read
variable {env : Env} {requestId : Uuid} {s s' : Sys} {a : Action} {i : ℕ}

theorem spawn {op : Op} (h : Read s) (hop : op.Read s.past) : Read (s.spawn op) := by
  refine ⟨h.record, ?_⟩
  intro j p hp
  rcases Slots.get_push_cases hp with ⟨-, rfl⟩ | ⟨-, hold⟩
  · exact hop
  · exact h.ops j p hold

theorem goOn {after : Option Pending} (h : Read s)
    (hafter : ∀ p, after = some p → p.op.Read s.past) : Read (s.goOn i after) := by
  refine ⟨h.record, ?_⟩
  intro j p hp
  rcases Slots.get_set_cases hp with ⟨-, hnew, -⟩ | ⟨-, hold⟩
  · exact hafter p hnew
  · exact h.ops j p hold

theorem finish (h : Read s) : Read (s.goOn i none) :=
  h.goOn fun _ hp => by cases hp

theorem goOn_map {α : Type*} {next : Option α} {f : α → Pending} (h : Read s)
    (hf : ∀ a, (f a).op.Read s.past) : Read (s.goOn i (next.map f)) := by
  apply h.goOn
  intro p hp
  obtain ⟨a, -, rfl⟩ := Option.map_eq_some_iff.mp hp
  exact hf a

/-- Another record is stored, whatever is counted of it. -/
theorem store {record : Option RemoteEnrollmentInboxRecord} {pruned : ℕ} {revived : Bool}
    (h : Read s) : Read { s.store record with pruned := pruned, revived := revived } := by
  constructor
  · exact List.mem_append_right _ (List.mem_singleton_self _)
  · intro j p hp
    exact (h.ops j p hp).append

theorem delete {ok : Bool} (h : Read s) (hs : s.delete i ok = some s') : Read s' := by
  unfold Sys.delete at hs
  split at hs
  case h_2 => cases hs
  next expired next since hget =>
  split_ifs at hs with hok hexpired
  · obtain rfl := Option.some.inj hs
    exact h.finish
  · obtain rfl := Option.some.inj hs
    exact h.store.goOn_map fun _ => trivial
  · obtain rfl := Option.some.inj hs
    exact h.goOn_map fun _ => trivial

theorem get (h : Read s) (hs : s.get env i = some s') : Read s' := by
  unfold Sys.get at hs
  split at hs
  case h_2 => cases hs
  split_ifs at hs with hsome
  · obtain rfl := Option.some.inj hs
    exact h.finish
  · obtain rfl := Option.some.inj hs
    apply h.goOn
    intro p hp
    obtain rfl := Option.some.inj hp
    trivial

theorem count {records : ℕ} (h : Read s) (hs : s.count i records = some s') : Read s' := by
  unfold Sys.count at hs
  split at hs
  case h_2 => cases hs
  split_ifs at hs with hroom
  · obtain rfl := Option.some.inj hs
    apply h.goOn
    intro p hp
    obtain rfl := Option.some.inj hp
    trivial
  · obtain rfl := Option.some.inj hs
    exact h.finish

theorem approve (h : Read s) : Read (s.approve env) := by
  unfold Sys.approve
  split
  · exact h
  · next record hrecord =>
    split_ifs
    · exact h
    · have hmem := h.record
      rw [hrecord] at hmem
      exact h.spawn hmem

theorem issue {issued : Option TravelResponseEnvelope} (h : Read s)
    (hs : s.issue i issued = some s') : Read s' := by
  unfold Sys.issue at hs
  split at hs
  case h_2 => cases hs
  next copy since hget =>
  obtain rfl := Option.some.inj hs
  have hcopy : some copy ∈ s.past := h.ops i _ hget
  apply h.goOn
  intro p hp
  obtain ⟨enrollment, -, rfl⟩ := Option.map_eq_some_iff.mp hp
  exact ⟨copy, enrollment, hcopy, rfl⟩

theorem acknowledge {travelId homeId : String} {credentialId : Uuid} {now : ℕ} (h : Read s) :
    Read (s.acknowledge env requestId travelId credentialId homeId now) := by
  unfold Sys.acknowledge
  split
  · exact h
  · exact h.spawn trivial

theorem write {ok : Bool} (h : Read s) (hs : s.write i ok = some s') : Read s' := by
  unfold Sys.write at hs
  split at hs
  case h_2 => cases hs
  split_ifs at hs
  · obtain rfl := Option.some.inj hs
    exact h.store.finish
  · obtain rfl := Option.some.inj hs
    exact h.finish

theorem step (h : Read s) (hs : s.step env requestId a = some s') : Read s' := by
  cases a with
  | submit submission validated now =>
    obtain rfl := Option.some.inj hs
    unfold Sys.submit
    split
    · exact h
    · exact h.spawn trivial
  | tick now =>
    obtain rfl := Option.some.inj hs
    exact h.spawn trivial
  | delete i ok => exact h.delete hs
  | get i => exact h.get hs
  | count i records => exact h.count hs
  | approve =>
    obtain rfl := Option.some.inj hs
    exact h.approve
  | issue i issued => exact h.issue hs
  | acknowledge travelId credentialId homeId now =>
    obtain rfl := Option.some.inj hs
    exact h.acknowledge
  | write i ok => exact h.write hs
  | drop i =>
    obtain ⟨p, -, rfl⟩ := Option.map_eq_some_iff.mp hs
    exact h.finish

theorem of_reachable {record : Option RemoteEnrollmentInboxRecord}
    (h : (machine env requestId record).Reachable s) : Read s := by
  refine h.invariant ?_ fun s a s' hread hs => hread.step hs
  refine ⟨List.mem_singleton_self record, ?_⟩
  intro i p hp
  simp [machine] at hp

end Read

namespace Sys

/-- The record that an approval is about to write. -/
def approvalAt (s : Sys) (i : ℕ) : Option RemoteEnrollmentInboxRecord :=
  match s.ops.get i with
  | some ⟨.writing .approval updated, _⟩ => some updated
  | _ => none

/-- No approval that is about to be written lets the record expire earlier. -/
def ApprovalsKeep (s : Sys) : Prop :=
  ∀ i updated, s.approvalAt i = some updated →
    NotEarlier RemoteEnrollmentInboxRecord.expired s.record updated

theorem approvalAt_cases {s : Sys} {i : ℕ} {updated : RemoteEnrollmentInboxRecord}
    (h : s.approvalAt i = some updated) :
    ∃ since, s.ops.get i = some ⟨.writing .approval updated, since⟩ := by
  unfold approvalAt at h
  split at h
  · next since hget =>
    obtain rfl := Option.some.inj h
    exact ⟨since, hget⟩
  · cases h

end Sys

/-! The inbox for Homes. -/

namespace Home

namespace HomeEnrollmentInboxRecord
variable {record copy current : HomeEnrollmentInboxRecord} {now : ℕ}

/-- When `prune_remote_enrollment_inbox_store` finds the record expired. -/
def expiresAt (record : HomeEnrollmentInboxRecord) : ℕ :=
  record.receivedAtUnixSecs + if record.response.isSome then remoteEnrollmentInstalledRetentionSecs
    else remoteEnrollmentPendingRetentionSecs

theorem expired_iff : record.expired now = true ↔ record.expiresAt ≤ now := by
  have hpending : 0 < remoteEnrollmentPendingRetentionSecs := by decide
  have hinstalled : 0 < remoteEnrollmentInstalledRetentionSecs := by decide
  unfold expired expiresAt
  rw [decide_eq_true_iff]
  split_ifs
  · omega
  · omega

/-- A copy stands for a record that is approved already and no younger, or that was received six
days before. -/
def stands (copy current : HomeEnrollmentInboxRecord) : Bool :=
  if current.response.isSome then decide (current.receivedAtUnixSecs ≤ copy.receivedAtUnixSecs)
  else decide (current.receivedAtUnixSecs + 6 * 24 * 60 * 60 ≤ copy.receivedAtUnixSecs)

/-- The record with its response. -/
def answer (record : HomeEnrollmentInboxRecord) (response : HomeResponseEnvelope) :
    HomeEnrollmentInboxRecord :=
  { record with response := some response }

theorem expiresAt_answer (response : HomeResponseEnvelope) : (copy.answer response).expiresAt =
    copy.receivedAtUnixSecs + remoteEnrollmentInstalledRetentionSecs := rfl

theorem expiresAt_le_iff (response : HomeResponseEnvelope) :
    current.expiresAt ≤ (copy.answer response).expiresAt ↔ copy.stands current = true := by
  have hpending : remoteEnrollmentPendingRetentionSecs = 7 * 24 * 60 * 60 := rfl
  have hinstalled : remoteEnrollmentInstalledRetentionSecs = 24 * 60 * 60 := rfl
  rw [expiresAt_answer]
  unfold expiresAt stands
  split_ifs
  · rw [decide_eq_true_iff]
    omega
  · rw [decide_eq_true_iff]
    omega

theorem notEarlier_iff {before : Option HomeEnrollmentInboxRecord} :
    NotEarlier expired before record ↔ ∀ current ∈ before, current.expiresAt ≤ record.expiresAt :=
  notEarlier_of_expiresAt fun _ _ => expired_iff

theorem notEarlier_answer_iff {before : Option HomeEnrollmentInboxRecord}
    (response : HomeResponseEnvelope) :
    NotEarlier expired before (copy.answer response) ↔ before.all copy.stands = true := by
  rw [notEarlier_iff, Option.all_eq_true]
  simp only [expiresAt_le_iff, Option.mem_def]

end HomeEnrollmentInboxRecord

/-- What prunes do whose clock is in the retention after an approval. -/
def Prunes (approvedAt : ℕ) : Action → Prop
  | .tick now => approvedAt ≤ now ∧ now < approvedAt + remoteEnrollmentInstalledRetentionSecs
  | .delete _ _ => True
  | _ => False

namespace Sys

/-- What an approval is about to write. -/
def approvalAt (s : Sys) (i : ℕ) : Option (Approving × HomeResponseEnvelope) :=
  match s.ops.get i with
  | some (.approved approving response) => some (approving, response)
  | _ => none

/-- No approval that is about to be written lets the record expire earlier. -/
def ApprovalsKeep (s : Sys) : Prop :=
  ∀ i approving response, s.approvalAt i = some (approving, response) →
    NotEarlier HomeEnrollmentInboxRecord.expired s.record (approving.copy.answer response)

/-- No prune that has found the record expired is still to delete it. -/
def Unmarked (s : Sys) : Prop := ∀ i, s.ops.get i ≠ some (.pruning true)

/-- No schedule of prunes deletes the record within the retention after its approval. -/
def Retrievable (env : Env) (requestId : Uuid) (s : Sys) (record : HomeEnrollmentInboxRecord)
    (approvedAt : ℕ) : Prop :=
  ∀ (actions : List Action) (s' : Sys), (∀ a ∈ actions, Prunes approvedAt a) →
    actions.foldlM (Sys.step env requestId) s = some s' → s'.record = some record

variable {env : Env} {requestId : Uuid} {s s' : Sys} {a : Action} {i approvedAt : ℕ}
  {record : HomeEnrollmentInboxRecord} {approving : Approving} {response : HomeResponseEnvelope}

theorem get_of_approvalAt (h : s.approvalAt i = some (approving, response)) :
    s.ops.get i = some (.approved approving response) := by
  unfold approvalAt at h
  split at h
  · next hget =>
    obtain ⟨rfl, rfl⟩ := Prod.mk.inj (Option.some.inj h)
    exact hget
  · cases h

/-- A prune that finds a record before it expires does not delete it. -/
theorem Unmarked.prune (hrecord : s.record = some record) (hunmarked : s.Unmarked)
    (hlasts : approvedAt + remoteEnrollmentInstalledRetentionSecs ≤ record.expiresAt)
    (ha : Prunes approvedAt a) (hs : s.step env requestId a = some s') :
    s'.record = some record ∧ s'.Unmarked := by
  cases a with
  | tick now =>
    obtain rfl := Option.some.inj hs
    have hlt : now < record.expiresAt := ha.2.trans_le hlasts
    have hfresh : s.record.any (·.expired now) = false := by
      rw [hrecord, Option.any_some, ← Bool.not_eq_true,
        HomeEnrollmentInboxRecord.expired_iff]
      omega
    refine ⟨hrecord, ?_⟩
    intro j hget
    rcases Slots.get_push_cases hget with ⟨-, heq⟩ | ⟨-, hold⟩
    · rw [hfresh] at heq
      cases heq
    · exact hunmarked j hold
  | delete j ok =>
    have hs : s.delete j ok = some s' := hs
    unfold Sys.delete at hs
    split at hs
    case h_2 => cases hs
    next expired hget =>
    have hfalse : expired = false := by
      cases expired with
      | false => rfl
      | true => exact absurd hget (hunmarked j)
    rw [hfalse, Bool.and_false, Bool.false_and, if_neg Bool.false_ne_true] at hs
    obtain rfl := Option.some.inj hs
    refine ⟨hrecord, ?_⟩
    intro k hget'
    rcases Slots.get_set_cases hget' with ⟨-, hnew, -⟩ | ⟨-, hold⟩
    · cases hnew
    · exact hunmarked k hold
  | _ => exact ha.elim

theorem delete_marked (hrecord : s.record = some record)
    (hget : s.ops.get i = some (.pruning true)) :
    s.delete i true = some ((s.replace none).goOn i none) := by
  unfold Sys.delete
  rw [hget, hrecord]
  rfl

/-- A record outlasts every schedule of prunes exactly if it does not expire before the retention is
over, and no prune has found it expired before. -/
theorem retrievable_iff (hrecord : s.record = some record) :
    s.Retrievable env requestId record approvedAt ↔
      s.Unmarked ∧ approvedAt + remoteEnrollmentInstalledRetentionSecs ≤ record.expiresAt := by
  constructor
  · intro h
    constructor
    · intro j hget
      have hrun : [Action.delete j true].foldlM (Sys.step env requestId) s =
          some ((s.replace none).goOn j none) := by
        show (s.delete j true).bind some = _
        rw [delete_marked hrecord hget]
        rfl
      have hprunes : ∀ a ∈ [Action.delete j true], Prunes approvedAt a := by
        intro a ha
        rw [List.mem_singleton.mp ha]
        trivial
      cases h _ _ hprunes hrun
    · by_contra hlt
      obtain ⟨last, hfrom, hto, hexpires⟩ : ∃ last, approvedAt ≤ last ∧
          last < approvedAt + remoteEnrollmentInstalledRetentionSecs ∧
          record.expiresAt ≤ last := by
        have hpos : 0 < remoteEnrollmentInstalledRetentionSecs := by decide
        refine ⟨approvedAt + remoteEnrollmentInstalledRetentionSecs - 1, ?_, ?_, ?_⟩ <;> omega
      have hmarked : (s.scan last).ops.get s.ops.next = some (.pruning true) := by
        show (s.ops.push _).get s.ops.next = _
        rw [Slots.get_push, if_pos rfl, hrecord, Option.any_some,
          HomeEnrollmentInboxRecord.expired_iff.mpr hexpires]
      have hrun : [Action.tick last, .delete s.ops.next true].foldlM (Sys.step env requestId) s =
          some (((s.scan last).replace none).goOn s.ops.next none) := by
        show ((s.scan last).delete s.ops.next true).bind some = _
        rw [delete_marked (s := s.scan last) hrecord hmarked]
        rfl
      have hprunes : ∀ a ∈ [Action.tick last, .delete s.ops.next true],
          Prunes approvedAt a := by
        intro a ha
        rcases List.mem_cons.mp ha with rfl | ha
        · exact ⟨hfrom, hto⟩
        · rw [List.mem_singleton.mp ha]
          trivial
      cases h _ _ hprunes hrun
  · rintro ⟨hunmarked, hlasts⟩ actions
    induction actions generalizing s with
    | nil =>
      intro s' _ hs
      obtain rfl := Option.some.inj hs
      exact hrecord
    | cons a actions ih =>
      intro s' hall hs
      rw [List.foldlM_cons] at hs
      obtain ⟨t, ht, hs⟩ := Option.bind_eq_some_iff.mp hs
      have hnext := hunmarked.prune hrecord hlasts (hall a List.mem_cons_self) ht
      exact ih hnext.1 hnext.2 s' (fun b hb => hall b (List.mem_cons_of_mem a hb)) hs

/-- The write of an approval puts its answer, and is itself no prune. -/
theorem write_approval {s s' : Sys} (h : s.approvalAt i = some (approving, response))
    (hs : s.write i true = some s') :
    s'.record = some (approving.copy.answer response) ∧ (s'.Unmarked ↔ s.Unmarked) := by
  have hget := get_of_approvalAt h
  unfold Sys.write at hs
  rw [hget] at hs
  obtain rfl := Option.some.inj hs
  refine ⟨rfl, ?_⟩
  constructor
  · intro hunmarked j hmarked
    by_cases hj : j = i
    · rw [hj, hget] at hmarked
      cases hmarked
    · apply hunmarked j
      show (s.ops.set i none).get j = _
      rw [Slots.get_set_ne hj]
      exact hmarked
  · intro hunmarked j hmarked
    rcases Slots.get_set_cases hmarked with ⟨-, hnew, -⟩ | ⟨-, hold⟩
    · cases hnew
    · exact hunmarked j hold

/-- An approval keeps what it replaces, and its answer for the retention, exactly if its copy stands
and was received as it was approved. -/
theorem kept_iff {s s' : Sys} (h : s.approvalAt i = some (approving, response))
    (hs : s.write i true = some s') :
    NotEarlier HomeEnrollmentInboxRecord.expired s.record (approving.copy.answer response) ∧
        s'.Retrievable env requestId (approving.copy.answer response) approvedAt ↔
      s.record.all approving.copy.stands = true ∧ s.Unmarked ∧
        approvedAt ≤ approving.copy.receivedAtUnixSecs := by
  obtain ⟨hrecord, hmarks⟩ := write_approval h hs
  rw [HomeEnrollmentInboxRecord.notEarlier_answer_iff, retrievable_iff hrecord, hmarks,
    HomeEnrollmentInboxRecord.expiresAt_answer, Nat.add_le_add_iff_right]

/-- A second approval that confirms the first one leaves its record as it is. -/
theorem approve_answered {request : ApproveRequest} {trust : Option DeploymentTrust} {now : ℕ}
    {credentialId : Uuid} (hrecord : s.record = some record) (hanswered : record.response.isSome) :
    (s.approve env request trust now credentialId).record = some record ∧
      ((s.approve env request trust now credentialId).Unmarked ↔ s.Unmarked) := by
  obtain ⟨existing, hexisting⟩ := Option.isSome_iff_exists.mp hanswered
  have hsame : (s.approve env request trust now credentialId).record = s.record ∧
      (s.approve env request trust now credentialId).ops = s.ops := by
    unfold Sys.approve
    rw [hrecord]
    cases env.homeEnrollmentAuthority with
    | none => exact ⟨hrecord, rfl⟩
    | some authorityId =>
      dsimp only
      cases request.approvedServices record.request with
      | none => exact ⟨hrecord, rfl⟩
      | some services =>
        simp only [hexisting]
        split_ifs
        · exact ⟨rfl, rfl⟩
        · exact ⟨hrecord, rfl⟩
  unfold Unmarked
  rw [hsame.1, hsame.2]
  exact ⟨hrecord, Iff.rfl⟩

end Sys

end Home

/-- The write of an approval, by what its copy says: a Travel keeps its record for as long as before
exactly if the copy stands. A Home keeps the answer for the whole retention exactly if besides no
prune is still to delete the record, and it was approved no later than it was received, whether by
this approval or by an earlier one. -/
theorem retained_iff (env : Env) (home : Home.Env) (requestId : Uuid) :
    (∀ (first : Option RemoteEnrollmentInboxRecord) (s s' : Sys) (i : ℕ)
        (updated : RemoteEnrollmentInboxRecord),
      (machine env requestId first).Reachable s → s.approvalAt i = some updated →
      s.step env requestId (.write i true) = some s' →
      s'.record = some updated ∧ ∃ copy enrollment, some copy ∈ s.past ∧
        updated = copy.approve enrollment ∧
        (NotEarlier RemoteEnrollmentInboxRecord.expired s.record updated ↔
          s.record.all copy.stands = true)) ∧
    (∀ (s s' : Home.Sys) (i approvedAt : ℕ) (approving : Home.Approving)
        (response : HomeResponseEnvelope),
      s.approvalAt i = some (approving, response) →
      s.step home requestId (.write i true) = some s' →
      s'.record = some (approving.copy.answer response) ∧
        (NotEarlier Home.HomeEnrollmentInboxRecord.expired s.record
              (approving.copy.answer response) ∧
            s'.Retrievable home requestId (approving.copy.answer response) approvedAt ↔
          s.record.all approving.copy.stands = true ∧ s.Unmarked ∧
            approvedAt ≤ approving.copy.receivedAtUnixSecs)) ∧
    ∀ (s s' : Home.Sys) (request : Home.ApproveRequest) (trust : Option DeploymentTrust) (now : ℕ)
        (credentialId : Uuid) (record : Home.HomeEnrollmentInboxRecord),
      s.record = some record → record.response.isSome →
      s.step home requestId (.approve request trust now credentialId) = some s' →
      s'.record = some record ∧ (s'.Retrievable home requestId record now ↔
        s.Unmarked ∧ now ≤ record.receivedAtUnixSecs) := by
  refine ⟨?_, ?_, ?_⟩
  · intro first s s' i updated hreach h hs
    obtain ⟨since, hget⟩ := Sys.approvalAt_cases h
    have hs : s.write i true = some s' := hs
    unfold Sys.write at hs
    rw [hget] at hs
    obtain rfl := Option.some.inj hs
    obtain ⟨copy, enrollment, hcopy, rfl⟩ := (Read.of_reachable hreach).ops i _ hget
    exact ⟨rfl, copy, enrollment, hcopy, rfl,
      RemoteEnrollmentInboxRecord.notEarlier_approve_iff enrollment⟩
  · intro s s' i approvedAt approving response h hs
    exact ⟨(Home.Sys.write_approval h hs).1, Home.Sys.kept_iff h hs⟩
  · intro s s' request trust now credentialId record hrecord hanswered hs
    obtain rfl := Option.some.inj hs
    obtain ⟨hrecord', hmarks⟩ := Home.Sys.approve_answered hrecord hanswered
    have hexpires : record.expiresAt =
        record.receivedAtUnixSecs + remoteEnrollmentInstalledRetentionSecs := by
      unfold Home.HomeEnrollmentInboxRecord.expiresAt
      rw [if_pos hanswered]
    refine ⟨hrecord', ?_⟩
    rw [Home.Sys.retrievable_iff hrecord', hmarks, hexpires, Nat.add_le_add_iff_right]

/-! An approval that nothing overlaps, one that comes after the Travel was installed, and one of a
Home two days after its request. -/

/-- An approval is about to be written. If it is late, it is the second one, and the Travel was
installed after the first. -/
def approvedTravel : Bool → List Action
  | false => submitted ++ [.approve, .issue 1 (some sampleEnrollment)]
  | true => submitted ++ [.approve, .approve, .issue 1 (some sampleEnrollment), .write 1 true,
      .acknowledge "travel-1" 1 "home-1" 530000, .write 3 true, .issue 2 (some sampleEnrollment)]

/-- When the record expires, and when the one expires that an approval is about to write. -/
def Sys.expiries (s : Sys) (i : ℕ) : Option ℕ × Option ℕ :=
  (s.record.map (·.expiresAt), (s.approvalAt i).map (·.expiresAt))

def Home.Sys.expiries (s : Home.Sys) (i : ℕ) : Option ℕ × Option ℕ :=
  (s.record.map (·.expiresAt),
    (s.approvalAt i).map fun answer => (answer.1.copy.answer answer.2).expiresAt)

theorem retained_iff_travel : ∃ s s' updated,
    (machine sampleEnv 1 none).exec (approvedTravel false) = some s ∧
      s.step sampleEnv 1 (.write 1 true) = some s' ∧ s'.record = some updated ∧
      ∃ copy enrollment, some copy ∈ s.past ∧ updated = copy.approve enrollment ∧
        (NotEarlier RemoteEnrollmentInboxRecord.expired s.record updated ↔
          s.record.all copy.stands = true) := by
  have hrun : ((machine sampleEnv 1 none).exec (approvedTravel false)).map (fun s =>
      (s.approvalAt 1).isSome && (s.step sampleEnv 1 (.write 1 true)).isSome) = some true := by
    decide
  obtain ⟨s, hs, hready⟩ := Option.map_eq_some_iff.mp hrun
  rw [Bool.and_eq_true] at hready
  obtain ⟨updated, hupdated⟩ := Option.isSome_iff_exists.mp hready.1
  obtain ⟨s', hs'⟩ := Option.isSome_iff_exists.mp hready.2
  have hall := (retained_iff sampleEnv Home.sampleEnv 1).1 none s s' 1 updated
  exact ⟨s, s', updated, hs, hs', hall (Machine.reachable_of_exec hs) hupdated hs'⟩

/-- A Home is approved two days after its request was received. -/
def approvedHome : List Home.Action :=
  Home.submitted ++ [.approve { profile := .servingOnly, password := "password" } none 173800 1,
    .acquire 1 true, .issue 1 (some Home.sampleSigning)]

/-- The next prune deletes the response, and the Home, that polls a minute later, is told that it
has to wait. -/
def approvedLate : List Home.Action :=
  approvedHome ++ [.write 1 true, .tick 173830, .delete 2 true,
    .submit Home.sampleSubmission 173860, .get 3 173860, .count 3 0, .write 3 true]

theorem not_retained_of_approvedLate :
    ((Home.machine Home.sampleEnv 1 none).exec approvedLate).map (fun s =>
        (s.credentials, s.record.map fun record =>
          (record.receivedAtUnixSecs, record.response.isSome))) =
      some (([1], [], [.servingOnly]), some (173860, false)) ∧
    (¬ ∀ s, (Home.machine Home.sampleEnv 1 none).Reachable s → s.ApprovalsKeep) ∧
    ¬ ∀ s, (machine sampleEnv 1 none).Reachable s → s.ApprovalsKeep := by
  refine ⟨by decide, ?_, ?_⟩
  · intro hall
    have hrun : ((Home.machine Home.sampleEnv 1 none).exec approvedHome).map (·.expiries 1) =
        some (some 605800, some 87400) := by
      decide
    obtain ⟨s, hs, hexpiries⟩ := Option.map_eq_some_iff.mp hrun
    obtain ⟨hbefore, hafter⟩ := Prod.mk.inj hexpiries
    obtain ⟨record, hrecord, hlong⟩ := Option.map_eq_some_iff.mp hbefore
    obtain ⟨⟨approving, response⟩, hanswer, hshort⟩ := Option.map_eq_some_iff.mp hafter
    have hkeeps := hall s (Machine.reachable_of_exec hs) 1 approving response hanswer
    have hle := Home.HomeEnrollmentInboxRecord.notEarlier_iff.mp hkeeps record hrecord
    rw [hlong, hshort] at hle
    omega
  · intro hall
    have hrun : ((machine sampleEnv 1 none).exec (approvedTravel true)).map (·.expiries 2) =
        some (some 616400, some 605800) := by
      decide
    obtain ⟨s, hs, hexpiries⟩ := Option.map_eq_some_iff.mp hrun
    obtain ⟨hbefore, hafter⟩ := Prod.mk.inj hexpiries
    obtain ⟨record, hrecord, hlong⟩ := Option.map_eq_some_iff.mp hbefore
    obtain ⟨updated, hupdated, hshort⟩ := Option.map_eq_some_iff.mp hafter
    have hkeeps := hall s (Machine.reachable_of_exec hs) 2 updated hupdated
    have hle := RemoteEnrollmentInboxRecord.notEarlier_iff.mp hkeeps record hrecord
    rw [hlong, hshort] at hle
    omega

end FlowSplice.Inbox
