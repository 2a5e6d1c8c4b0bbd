import Mathlib.Data.List.Infix
import FlowSplice.Lib.Transfer

/-! A transfer of which only the bytes matter: whether a stream has come to its end, and who
knows, is left out. Its moves are still moves of a transfer. -/
namespace Transfer
open State Chunks

variable {κ α : Type*} [DecidableEq κ]

/-- A message that carries no end of the stream. -/
def Forward.isOpen : Forward α → Bool
  | .fin _ => false
  | _ => true

def Backward.isOpen : Backward → Bool
  | .finAck _ => false
  | _ => true

/-- The transfer as if the stream had no end. -/
def State.endless (s : State κ α) : State κ α :=
  { s with
    eof := false
    finAcked := false
    closedAt := none
    forward := fun c => (s.forward c).filter Forward.isOpen
    backward := fun c => (s.backward c).filter Backward.isOpen }

section Endless
variable {s s' : State κ α}

theorem endless_sendForward (oc : Option κ) (ms : List (Forward α)) :
    (s.sendForward oc ms).endless = s.endless.sendForward oc (ms.filter Forward.isOpen) := by
  simp only [endless, sendForward, State.mk.injEq, true_and, and_true]
  funext d
  change (if oc = some d ∧ s.up d then s.forward d ++ ms else s.forward d).filter _ =
    if oc = some d ∧ s.up d then (s.forward d).filter _ ++ ms.filter _ else (s.forward d).filter _
  split_ifs
  · rw [List.filter_append]
  · rfl

theorem endless_sendBackward (c : κ) (ms : List Backward) :
    (s.sendBackward c ms).endless = s.endless.sendBackward c (ms.filter Backward.isOpen) := by
  simp only [endless, sendBackward, State.mk.injEq, true_and, and_true]
  funext d
  change (if d = c ∧ s.up d then s.backward d ++ ms else s.backward d).filter _ =
    if d = c ∧ s.up d then (s.backward d).filter _ ++ ms.filter _ else (s.backward d).filter _
  split_ifs
  · rw [List.filter_append]
  · rfl

theorem endless_popForward (c : κ) (rest : List (Forward α)) :
    (s.popForward c rest).endless = s.endless.popForward c (rest.filter Forward.isOpen) := by
  simp only [endless, popForward, State.mk.injEq, true_and, and_true]
  funext d
  by_cases hd : d = c <;> simp [hd]

theorem endless_popBackward (c : κ) (rest : List Backward) :
    (s.popBackward c rest).endless = s.endless.popBackward c (rest.filter Backward.isOpen) := by
  simp only [endless, popBackward, State.mk.injEq, true_and, and_true]
  funext d
  by_cases hd : d = c <;> simp [hd]

omit [DecidableEq κ] in
theorem endless_retained : s.retained.filter Forward.isOpen = s.endless.retained := by
  have hdata : ∀ l : List (ℕ × List α), (l.map fun p => Forward.data p.1 p.2).filter Forward.isOpen =
      l.map fun p => Forward.data p.1 p.2 := by
    intro l
    rw [List.filter_eq_self]
    intro m hm
    obtain ⟨p, -, rfl⟩ := List.mem_map.mp hm
    rfl
  rw [retained, List.filter_append, hdata]
  cases s.eof <;> simp [retained, endless, Forward.isOpen]

/-- A channel that only a message about the end was taken off. -/
theorem endless_popForward_fin {c : κ} {f : ℕ} {rest : List (Forward α)}
    (h : s.forward c = .fin f :: rest) : (s.popForward c rest).endless = s.endless := by
  have heq : rest.filter Forward.isOpen = s.endless.forward c := by
    simp [endless, h, Forward.isOpen]
  rw [endless_popForward, heq, popForward_self]

theorem endless_popBackward_finAck {c : κ} {f : ℕ} {rest : List Backward}
    (h : s.backward c = .finAck f :: rest) : (s.popBackward c rest).endless = s.endless := by
  have heq : rest.filter Backward.isOpen = s.endless.backward c := by
    simp [endless, h, Backward.isOpen]
  rw [endless_popBackward, heq, popBackward_self]

omit [DecidableEq κ] in
theorem endless_forward_cons {c : κ} {m : Forward α} {rest : List (Forward α)}
    (h : s.forward c = m :: rest) (hm : m.isOpen = true) :
    s.endless.forward c = m :: rest.filter Forward.isOpen := by
  simp [endless, h, hm]

/-- A move of a transfer is a move, or none, of the transfer without ends. -/
theorem Step.endless (h : Step s s') : Relation.ReflTransGen Step s.endless s'.endless := by
  cases h with
  | read b hb heof =>
    rw [endless_sendForward]
    exact .single (.read (s := s.endless) b hb rfl)
  | endRead =>
    rw [endless_sendForward]
    change Relation.ReflTransGen Step s.endless (s.endless.sendForward _ [])
    rw [sendForward_nil]
  | activate c =>
    rw [endless_sendForward, endless_retained]
    exact .single (.activate (s := s.endless) c)
  | deactivate => exact .single (.deactivate (s := s.endless))
  | probe c =>
    rw [endless_sendForward]
    exact .single (.probe (s := s.endless) c)
  | takeAck c n rest h hn =>
    have hq : s.endless.backward c = .ack n :: rest.filter Backward.isOpen := by
      simp only [State.endless, h]
      rfl
    have hstep := Step.takeAck (s := s.endless) c n _ hq hn
    rw [← endless_popBackward] at hstep
    exact .single hstep
  | takeFinAck c f rest h =>
    have heq := endless_popBackward_finAck h
    change Relation.ReflTransGen Step s.endless (s.popBackward c rest).endless
    rw [heq]
  | dropBackward c rest h =>
    rw [endless_popBackward]
    exact .single (.dropBackward (s := s.endless) c _ (h.filter _))
  | accept c b rest h ht =>
    have hstep := Step.accept (s := s.endless) c b (rest.filter Forward.isOpen)
      (endless_forward_cons h rfl) ht
    rw [← endless_popForward] at hstep
    exact .single hstep
  | tear c b rest n k h ht hk =>
    have hstep := Step.tear (s := s.endless) c b (rest.filter Forward.isOpen) n k
      (endless_forward_cons h rfl) ht hk
    rw [← endless_popForward] at hstep
    exact .single hstep
  | skipData c o b rest h hle =>
    rw [endless_popForward]
    exact .single (.skipData (s := s.endless) c o b _ (endless_forward_cons h rfl) hle)
  | skipProbe c n rest h =>
    rw [endless_popForward]
    exact .single (.skipProbe (s := s.endless) c n _ (endless_forward_cons h rfl))
  | finish c rest h ht =>
    have heq := endless_popForward_fin h
    change Relation.ReflTransGen Step s.endless (s.popForward c rest).endless
    rw [heq]
  | refuse c rest t h =>
    have hstep := Step.refuse (s := s.endless) c (rest.filter Forward.isOpen) t (h.filter _)
    rw [← endless_popForward] at hstep
    exact .single hstep
  | sendAck c ht =>
    rw [endless_sendBackward]
    exact .single (.sendAck (s := s.endless) c ht)
  | sendFinAck c hc =>
    rw [endless_sendBackward]
    change Relation.ReflTransGen Step s.endless (s.endless.sendBackward c [])
    rw [sendBackward_nil]
  | lose c fs bs hf hb =>
    have hstep := Step.lose (s := s.endless) c (fs.filter Forward.isOpen)
      (bs.filter Backward.isOpen) (hf.filter _) (hb.filter _)
    convert Relation.ReflTransGen.single hstep using 1
    simp only [State.endless, State.mk.injEq, true_and, and_true]
    constructor <;> funext d <;> by_cases hd : d = c <;> simp [hd]
  | «open» up h =>
    exact .single (.open (s := s.endless) up fun c hc => by
      obtain ⟨h1, h2, h3⟩ := h c hc
      exact ⟨by simp [State.endless, h1], by simp [State.endless, h2], h3⟩)

theorem Steps.endless (h : Steps s s') : Steps s.endless s'.endless :=
  Relation.ReflTransGen.lift' State.endless (fun _ _ => Step.endless) _ _ h

/-- The sender never forgets what was acknowledged. -/
theorem Step.acked_le (h : Step s s') : s.acked ≤ s'.acked := by
  cases h with
  | takeAck c n rest h hn => exact hn
  | _ => exact le_rfl

theorem Steps.acked_le (h : Steps s s') : s.acked ≤ s'.acked := by
  induction h with
  | refl => exact le_rfl
  | tail _ hst ih => exact ih.trans hst.acked_le

omit [DecidableEq κ] in
/-- Nothing was received where nothing was written. -/
theorem Inv.received_eq_zero (hi : Inv s) (hw : s.written = []) : s.received = 0 := by
  have hle := hi.received_written
  rwa [hw, List.length_nil, Nat.le_zero] at hle

omit [DecidableEq κ] in
/-- A receiver that has written nothing may start from nothing again. -/
theorem Inv.renewReceiver {t : State κ α} (hi : Inv s) (hw : s.written = [])
    (hc : s.closedAt = none) (hreads : t.reads = s.reads) (hacked : t.acked = s.acked)
    (hunacked : t.unacked = s.unacked) (hfin : t.finAcked = s.finAcked) (heof : t.eof = s.eof)
    (hforward : t.forward = s.forward) (hbackward : t.backward = s.backward)
    (hreceived : t.received = 0) (hwritten : t.written = []) (hclosed : t.closedAt = none)
    (htorn : t.torn = true → t.refused = true) : Inv t := by
  have hzero := hi.received_eq_zero hw
  have hg : Grows s t :=
    .of_eq hreads heof (hreceived.trans hzero.symm) (hclosed.trans hc.symm)
  have hzero' : s.acked = 0 := Nat.le_zero.mp (hzero ▸ hi.acked_le)
  obtain ⟨hf, hb⟩ := hi.messages hg (fun c m hm => .inl (hforward ▸ hm))
    (fun c m hm => .inl (hbackward ▸ hm))
  exact {
    reads_ne := hreads ▸ hi.reads_ne
    unacked := by
      rw [hreads, hacked, hunacked]
      exact hi.unacked
    forward := hf
    backward := hb
    acked_le := by rw [hacked, hzero']; exact Nat.zero_le _
    received_le := by rw [hreceived]; exact Nat.zero_le _
    received_written := by rw [hreceived]; exact Nat.zero_le _
    written := by rw [hwritten]; exact List.nil_prefix
    exact := fun _ => by
      rw [hwritten, hreceived]
      exact ⟨rfl, cut_zero _⟩
    torn := htorn
    closed := fun n hn => by simp [hclosed] at hn
    finAcked := fun h => by
      have hsome := hi.finAcked (hfin ▸ h)
      simp [hc] at hsome }

omit [DecidableEq κ] in
/-- A sender of which nothing was written may start from nothing again. -/
theorem Inv.renewSender {t : State κ α} (hi : Inv s) (hw : s.written = [])
    (hc : s.closedAt = none) (hreads : t.reads = []) (hacked : t.acked = 0)
    (hunacked : t.unacked = []) (hfin : t.finAcked = false) (hforward : ∀ c, t.forward c = [])
    (hbackward : t.backward = s.backward) (hreceived : t.received = s.received)
    (hwritten : t.written = s.written) (hclosed : t.closedAt = s.closedAt)
    (htorn : t.torn = true → t.refused = true) : Inv t := by
  have hzero := hi.received_eq_zero hw
  have hb : ∀ c, ∀ m ∈ t.backward c, BackwardOk t m := by
    intro c m hm
    have hok := hi.backward c m (hbackward ▸ hm)
    cases m with
    | ack n =>
      obtain rfl : n = 0 := Nat.le_zero.mp (hzero ▸ hok.1)
      exact ⟨Nat.zero_le _, cut_zero _⟩
    | finAck f =>
      have hsome := hok.1
      simp [hc] at hsome
  exact {
    reads_ne := fun b hb => by simp [hreads] at hb
    unacked := ⟨[], [], hreads, hacked, by rw [hunacked, segmentsFrom]⟩
    forward := fun c m hm => by simp [hforward] at hm
    backward := hb
    acked_le := by rw [hacked]; exact Nat.zero_le _
    received_le := by rw [hreceived, hzero]; exact Nat.zero_le _
    received_written := by rw [hreceived, hzero]; exact Nat.zero_le _
    written := by rw [hwritten, hw]; exact List.nil_prefix
    exact := fun _ => by
      rw [hwritten, hw, hreceived, hzero]
      exact ⟨rfl, cut_zero _⟩
    torn := htorn
    closed := fun n hn => by simp [hclosed, hc] at hn
    finAcked := fun h => by simp [hfin] at h }

end Endless

end Transfer
