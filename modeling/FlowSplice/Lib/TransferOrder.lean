import Mathlib.Order.MinMax
import FlowSplice.Lib.Transfer

/-! What a channel of a transfer holds can be taken in order: each chunk starts no later than the
chunks before it reach, unless the receiver has refused one. -/
namespace Transfer
open Chunks
variable {κ α : Type*}

/-- How far the receiver comes that stands at `r` and takes a whole queue. -/
def reach (r : ℕ) : List (Forward α) → ℕ
  | [] => r
  | .data o b :: q => reach (max r (o + b.length)) q
  | .fin _ :: q | .probe _ :: q => reach r q

/-- A receiver at `r` meets no gap in a queue. -/
def Feasible (r : ℕ) : List (Forward α) → Prop
  | [] => True
  | .data o b :: q => o ≤ r ∧ Feasible (max r (o + b.length)) q
  | .fin f :: q => f ≤ r ∧ Feasible r q
  | .probe _ :: q => Feasible r q

section Queues
variable {r r' : ℕ} {q q' : List (Forward α)}

theorem reach_mono (h : r ≤ r') : reach r q ≤ reach r' q := by
  induction q generalizing r r' with
  | nil => exact h
  | cons m q ih =>
    cases m with
    | data o b => exact ih (max_le_max h le_rfl)
    | fin f => exact ih h
    | probe n => exact ih h

theorem le_reach : r ≤ reach r q := by
  induction q generalizing r with
  | nil => exact le_rfl
  | cons m q ih =>
    cases m with
    | data o b => exact (le_max_left _ _).trans ih
    | fin f => exact ih
    | probe n => exact ih

theorem reach_append : reach r (q ++ q') = reach (reach r q) q' := by
  induction q generalizing r with
  | nil => rfl
  | cons m q ih => cases m <;> exact ih

theorem Feasible.mono (h : Feasible r q) (hr : r ≤ r') : Feasible r' q := by
  induction q generalizing r r' with
  | nil => trivial
  | cons m q ih =>
    cases m with
    | data o b => exact ⟨h.1.trans hr, ih h.2 (max_le_max hr le_rfl)⟩
    | fin f => exact ⟨h.1.trans hr, ih h.2 hr⟩
    | probe n => exact ih h hr

theorem feasible_append : Feasible r (q ++ q') ↔ Feasible r q ∧ Feasible (reach r q) q' := by
  induction q generalizing r with
  | nil => simp [Feasible, reach]
  | cons m q ih => cases m <;> simp [Feasible, reach, ih, and_assoc]

theorem Feasible.shrink (h : Feasible r q') (hp : q <+: q') : Feasible r q := by
  obtain ⟨rest, rfl⟩ := hp
  exact (feasible_append.mp h).1

/-- Chunks one after the other, from an offset already reached. -/
theorem feasible_segmentsFrom {o : ℕ} (bs : List (List α)) (ho : o ≤ r) :
    Feasible r ((segmentsFrom o bs).map fun p => .data p.1 p.2) ∧
      o + bs.flatten.length ≤ reach r ((segmentsFrom o bs).map fun p => .data p.1 p.2) := by
  induction bs generalizing o r with
  | nil => exact ⟨trivial, ho⟩
  | cons b bs ih =>
    obtain ⟨h1, h2⟩ := ih (o := o + b.length) (r := max r (o + b.length)) (le_max_right _ _)
    refine ⟨⟨ho, h1⟩, ?_⟩
    rw [List.flatten_cons, List.length_append, ← Nat.add_assoc]
    exact h2

end Queues

/-- No channel holds a gap, and the active one leads to the end of what was sent. -/
structure Ordered (s : State κ α) : Prop where
  feasible : ∀ c, Feasible s.received (s.forward c)
  active : ∀ c, s.active = some c → s.up c = true → s.sent ≤ reach s.received (s.forward c)

variable {s s' : State κ α}

theorem Ordered.of_eq (h : Ordered s) (hf : s'.forward = s.forward) (hu : s'.up = s.up)
    (ha : s'.active = s.active ∨ s'.active = none) (hr : s'.received = s.received)
    (hs : s'.sent = s.sent) : Ordered s' := by
  refine ⟨fun c => by rw [hf, hr]; exact h.feasible c, fun c hc hup => ?_⟩
  rcases ha with ha | ha
  · rw [hf, hr, hs]
    exact h.active c (ha ▸ hc) (hu ▸ hup)
  · rw [ha] at hc
    cases hc

/-- A chunk at the head of a channel continues the stream or is known already. -/
theorem Ordered.data_head (hi : Inv s) (h : Ordered s) (ht : s.torn = false) {c : κ} {o : ℕ}
    {b : List α} {rest : List (Forward α)} (hq : s.forward c = .data o b :: rest) :
    o = s.received ∨ o + b.length ≤ s.received := by
  have hf := h.feasible c
  rw [hq] at hf
  rcases hf.1.eq_or_lt with heq | hlt
  · exact .inl heq
  · have hseg : Segment s.reads o b := hi.forward c (.data o b) (hq ▸ List.mem_cons_self)
    exact .inr (hseg.end_le (hi.exact ht).2 hlt)

/-- The end of the stream is announced only where the receiver stands. -/
theorem Ordered.fin_head (hi : Inv s) (h : Ordered s) {c : κ} {f : ℕ} {rest : List (Forward α)}
    (hq : s.forward c = .fin f :: rest) : f = s.received := by
  have hf := h.feasible c
  rw [hq] at hf
  have hok := hi.forward c (.fin f) (hq ▸ List.mem_cons_self)
  exact le_antisymm hf.1 (hok.2 ▸ hi.received_le)

variable [DecidableEq κ]

/-- Sending on one channel what it can bear. -/
theorem Ordered.sendForward (h : Ordered s) {oc : Option κ} {ms : List (Forward α)}
    {s' : State κ α} (hf : s'.forward = (s.sendForward oc ms).forward)
    (hr : s'.received = s.received) (hu : s'.up = s.up)
    (hms : ∀ c, oc = some c → s.up c = true → Feasible (reach s.received (s.forward c)) ms)
    (ha : ∀ c, s'.active = some c → s.up c = true →
      (oc = some c → s'.sent ≤ reach (reach s.received (s.forward c)) ms) ∧
      (oc ≠ some c → s.active = some c ∧ s'.sent = s.sent)) : Ordered s' := by
  refine ⟨fun c => ?_, fun c hc hup => ?_⟩
  · rw [hf, hr, State.sendForward]
    dsimp only
    split_ifs with hg
    · exact feasible_append.mpr ⟨h.feasible c, hms c hg.1 hg.2⟩
    · exact h.feasible c
  · rw [hu] at hup
    rw [hf, hr, State.sendForward]
    dsimp only
    split_ifs with hg
    · rw [reach_append]
      exact (ha c hc hup).1 hg.1
    · obtain ⟨hact, hsent⟩ := (ha c hc hup).2 fun hoc => hg ⟨hoc, hup⟩
      rw [hsent]
      exact h.active c hact hup

/-- Taking the first message of a channel, at no loss to the receiver. -/
theorem Ordered.popForward (h : Ordered s) {c : κ} {m : Forward α} {rest : List (Forward α)}
    (hq : s.forward c = m :: rest) (hf : s'.forward = (s.popForward c rest).forward)
    (hu : s'.up = s.up) (ha : s'.active = s.active) (hs : s'.sent = s.sent)
    (hr : s.received ≤ s'.received) (hm : Feasible s'.received rest)
    (hreach : reach s'.received rest = reach s.received (m :: rest)) : Ordered s' := by
  refine ⟨fun d => ?_, fun d hd hup => ?_⟩
  · rw [hf, State.popForward]
    by_cases hdc : d = c
    · subst hdc
      simpa using hm
    · simpa [hdc] using (h.feasible d).mono hr
  · rw [hu] at hup
    rw [ha] at hd
    rw [hf, hs, State.popForward]
    by_cases hdc : d = c
    · subst hdc
      simpa [hreach, ← hq] using h.active d hd hup
    · simpa [hdc] using (h.active d hd hup).trans (reach_mono hr)

theorem Step.refused (h : Step s s') (hr : s'.refused = false) : s.refused = false := by
  cases h with
  | tear | refuse => cases hr
  | read | endRead | activate | deactivate | probe | takeAck | takeFinAck | dropBackward | accept
  | skipData | skipProbe | finish | sendAck | sendFinAck | lose | «open» => exact hr

theorem Ordered.step (hi : Inv s) (h : Ordered s) (hst : Step s s')
    (hr : s'.refused = false) : Ordered s' := by
  cases hst with
  | tear | refuse => cases hr
  | read b hb heof =>
    refine h.sendForward rfl rfl rfl (fun c hc hup => ⟨h.active c hc hup, trivial⟩)
      fun c hc hup => ⟨fun _ => ?_, fun hne => absurd hc hne⟩
    have hsent : State.sent ({ s with
        reads := s.reads ++ [b]
        unacked := s.unacked ++ [(s.sent, b)] }.sendForward s.active [.data s.sent b]) =
          s.sent + b.length := by
      simp only [State.sent, State.sendForward, List.flatten_append, List.length_append,
        List.flatten_singleton]
    rw [hsent]
    exact le_max_right _ _
  | endRead =>
    exact h.sendForward rfl rfl rfl (fun c hc hup => ⟨h.active c hc hup, trivial⟩)
      fun c hc hup => ⟨fun _ => h.active c hc hup, fun hne => absurd hc hne⟩
  | activate c =>
    obtain ⟨done, rest, hreads, hacked, hunacked⟩ := hi.unacked
    have hacked_le : s.acked ≤ reach s.received (s.forward c) := hi.acked_le.trans le_reach
    obtain ⟨hfeasible, hreach⟩ := feasible_segmentsFrom rest hacked_le
    have hsent : s.sent = s.acked + rest.flatten.length := by
      rw [State.sent, hreads, hacked, List.flatten_append, List.length_append]
    rw [← hunacked, ← hsent] at hreach
    rw [← hunacked] at hfeasible
    have hret : Feasible (reach s.received (s.forward c)) s.retained ∧
        s.sent ≤ reach (reach s.received (s.forward c)) s.retained := by
      rw [State.retained, feasible_append, reach_append]
      split_ifs
      · exact ⟨⟨hfeasible, hreach, trivial⟩, hreach⟩
      · exact ⟨⟨hfeasible, trivial⟩, hreach⟩
    refine h.sendForward rfl rfl rfl (fun d hd _ => ?_)
      fun d hd _ => ⟨fun _ => ?_, fun hne => absurd hd hne⟩
    · obtain rfl := Option.some.inj hd
      exact hret.1
    · obtain rfl := Option.some.inj hd
      exact hret.2
  | deactivate => exact h.of_eq rfl rfl (.inr rfl) rfl rfl
  | probe c =>
    refine h.sendForward rfl rfl rfl (fun d _ _ => trivial)
      fun d hd hup => ⟨fun _ => h.active d hd hup, fun _ => ⟨hd, rfl⟩⟩
  | takeAck | takeFinAck | dropBackward | sendAck | sendFinAck =>
    exact h.of_eq rfl rfl (.inl rfl) rfl rfl
  | accept c b rest hq ht =>
    have hf := h.feasible c
    rw [hq] at hf
    have hmax : max s.received (s.received + b.length) = s.received + b.length :=
      max_eq_right (Nat.le_add_right _ _)
    refine h.popForward hq rfl rfl rfl rfl (Nat.le_add_right _ _) ?_ ?_
    · have := hf.2
      rwa [hmax] at this
    · rw [reach, hmax]
  | skipData c o b rest hq hle =>
    have hf := h.feasible c
    rw [hq] at hf
    have hmax : max s.received (o + b.length) = s.received := max_eq_left hle
    refine h.popForward hq rfl rfl rfl rfl le_rfl ?_ ?_
    · have := hf.2
      rwa [hmax] at this
    · rw [reach, hmax]
      rfl
  | skipProbe c n rest hq =>
    have hf := h.feasible c
    rw [hq] at hf
    exact h.popForward hq rfl rfl rfl rfl le_rfl hf rfl
  | finish c rest hq ht =>
    have hf := h.feasible c
    rw [hq] at hf
    exact h.popForward hq rfl rfl rfl rfl le_rfl hf.2 rfl
  | lose c fs bs hfs hbs =>
    refine ⟨fun d => ?_, fun d hd hup => ?_⟩
    · by_cases hdc : d = c
      · subst hdc
        simpa using (h.feasible d).shrink hfs
      · simpa [hdc] using h.feasible d
    · by_cases hdc : d = c
      · subst hdc
        simp at hup
      · simp only [Function.update_of_ne hdc] at hup ⊢
        exact h.active d hd hup
  | «open» up hup' =>
    refine ⟨h.feasible, fun c hc hup => ?_⟩
    by_cases hne : up c = s.up c
    · exact h.active c hc (hne ▸ hup)
    · exact absurd hc (hup' c hne).2.2

/-- The order survives any number of moves that refuse nothing. -/
theorem Ordered.steps (hi : Inv s) (h : s.refused = false → Ordered s) (hst : Steps s s') :
    s'.refused = false → Ordered s' := by
  induction hst with
  | refl => exact h
  | tail hst hlast ih => exact fun hr => (ih (hlast.refused hr)).step (hi.steps hst) hlast hr

end Transfer
