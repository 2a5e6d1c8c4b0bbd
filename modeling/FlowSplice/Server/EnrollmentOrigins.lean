import FlowSplice.Server.EnrollmentAnswers

/-! Homes that answer what they were asked, once, and request ids that are used again only when
nothing is left of their last use. -/
namespace FlowSplice.Server.Enrollments

namespace Sys

/-- A Home may still answer the call, or may yet get it. -/
def live (s : Sys) (c : ℕ) : Bool :=
  match (s.calls[c]?).map Call.phase with
  | some (.inserted _) | some (.sending _) | some (.failing _) => true
  | some (.delivered h) =>
    match s.homes[h]? with
    | some home => home.running && decide (c ∉ home.answered)
    | none => false
  | _ => false

/-- A Home answers a submission that it has read in the same session, once and for its stage. A
record is put only when no Home can answer an earlier call of its request id any more. -/
def faithful (s : Sys) : Action → Prop
  | .insert c => ∀ call ∈ s.calls[c]?, ∀ i < s.calls.length, ∀ other ∈ s.calls[i]?,
      other.submission.requestId = call.submission.requestId → s.live i = false
  | .answer h answer origin => ∀ home ∈ s.homes[h]?, ∃ c ∈ origin, c ∈ home.received ∧
      c ∉ home.answered ∧ ∃ call ∈ s.calls[c]?, answer.requestId = call.submission.requestId ∧
        answer.isInstalled = call.submission.isInstalled
  | _ => True

instance (s : Sys) (a : Action) : Decidable (s.faithful a) :=
  match a with
  | .insert _ | .answer _ _ _ => inferInstanceAs (Decidable (∀ _ ∈ _, _))
  | .connectRelay _ | .submit _ _ | .authorize _ _ | .locate _ | .beginSend _ | .deliver _
  | .sendFails _ | .retire _ | .reply _ | .write _ | .endRelay _ | .connectHome _ | .stopWriter _
  | .receive _ | .compose _ | .forward _ | .forwardFails _ | .endHome _ | .clearHome _
  | .publish _ | .cleanup | .tick _ => inferInstanceAs (Decidable True)

end Sys

/-- A record stands for the one call of its request id that may be answered. What took a record was
meant for its call, which had reached that Home session. No answer has ended a Home session. -/
structure Faithful (s : Sys) : Prop where
  alone : ∀ id record, s.pending.lookup id = some record → ∀ (c : ℕ) (call : Call),
    s.calls[c]? = some call → call.submission.requestId = id → s.live c = true →
      c = record.forwardingId
  meant : ∀ (c : ℕ) (call : Call) t, s.calls[c]? = some call → call.taken = some t →
    call.phase = .delivered t.home ∧ t.origin = some c
  whole : ∀ (h : ℕ) home, s.homes[h]? = some home → home.torn = false

variable {config : Config} {s s' : Sys} {call call' : Call} {relay relay' : RelaySession}
  {home home' : HomeSession} {record : PendingEnrollment} {id : Uuid} {c r h : ℕ}

theorem live_of_phase (hcall : s.calls[c]? = some call)
    (hphase : call.phase.recorded = true) (hundelivered : ∀ h, call.phase ≠ .delivered h) :
    s.live c = true := by
  unfold Sys.live
  rw [hcall]
  cases hp : call.phase with
  | inserted _ | sending _ | failing _ => simp [hp]
  | delivered h => exact absurd hp (hundelivered h)
  | started | authorized | located _ | refused _ | replied _ =>
    rw [hp] at hphase
    cases hphase

theorem live_of_delivered (hcall : s.calls[c]? = some call) (hphase : call.phase = .delivered h)
    (hhome : s.homes[h]? = some home) :
    s.live c = true ↔ home.running = true ∧ c ∉ home.answered := by
  unfold Sys.live
  simp [hcall, hphase, hhome]

/-- A live call has a record, or had one. -/
theorem recorded_of_live (hlive : s.live c = true) :
    ∃ call, s.calls[c]? = some call ∧ call.phase.recorded = true := by
  unfold Sys.live at hlive
  cases hcall : s.calls[c]? with
  | none => simp [hcall] at hlive
  | some call =>
    refine ⟨call, rfl, ?_⟩
    cases hp : call.phase with
    | inserted _ | sending _ | failing _ | delivered _ => rfl
    | started | authorized | located _ | refused _ | replied _ => simp [hcall, hp] at hlive

/-- Calls go on without being taken, and none that a Home has got changes its phase. -/
def Onward (calls calls' : List Call) : Prop :=
  ∀ (c : ℕ) (call' : Call), calls'[c]? = some call' →
    (∃ call, calls[c]? = some call ∧ call'.submission = call.submission ∧
      call'.taken = call.taken ∧ (call'.phase = call.phase ∨ (∀ h, call.phase ≠ .delivered h) ∧
        (call'.phase.recorded = true → call.phase.recorded = true))) ∨
    call'.phase.recorded = false ∧ call'.taken = none

/-- Home sessions end and answer, and none of them is ended by an answer. -/
structure Aging (homes homes' : List HomeSession) : Prop where
  kept : ∀ (h : ℕ) home home', homes[h]? = some home → homes'[h]? = some home' →
    (home'.running = true → home.running = true) ∧ ∀ c ∈ home.answered, c ∈ home'.answered
  whole : ∀ (h : ℕ) home', homes'[h]? = some home' → home'.torn = false ∨
    ∃ home, homes[h]? = some home ∧ home'.torn = home.torn

theorem Onward.refl (calls : List Call) : Onward calls calls :=
  fun _ call hcall => .inl ⟨call, hcall, rfl, rfl, .inl rfl⟩

theorem Onward.set {calls : List Call} (hcall : calls[c]? = some call)
    (hsubmission : call'.submission = call.submission) (htaken : call'.taken = call.taken)
    (hphase : call'.phase = call.phase ∨ (∀ h, call.phase ≠ .delivered h) ∧
      (call'.phase.recorded = true → call.phase.recorded = true)) :
    Onward calls (calls.set c call') := by
  intro i new hnew
  rcases Cells.getElem?_set_cases hcall hnew with ⟨rfl, rfl⟩ | ⟨-, hnew⟩
  · exact .inl ⟨call, hcall, hsubmission, htaken, hphase⟩
  · exact .inl ⟨new, hnew, rfl, rfl, .inl rfl⟩

theorem Aging.refl (homes : List HomeSession) : Aging homes homes where
  kept _ home home' hhome hhome' := by
    rw [hhome] at hhome'
    rw [← Option.some.inj hhome']
    exact ⟨fun h => h, fun _ h => h⟩
  whole _ home hhome := .inr ⟨home, hhome, rfl⟩

theorem Aging.set {homes : List HomeSession} (hhome : homes[h]? = some home)
    (hrunning : home'.running = true → home.running = true)
    (hanswered : ∀ c ∈ home.answered, c ∈ home'.answered) (htorn : home'.torn = home.torn) :
    Aging homes (homes.set h home') where
  kept i old new hold hnew := by
    rcases Cells.getElem?_set_cases hhome hnew with ⟨rfl, rfl⟩ | ⟨-, hnew⟩
    · rw [hhome] at hold
      rw [← Option.some.inj hold]
      exact ⟨hrunning, hanswered⟩
    · rw [hold] at hnew
      rw [← Option.some.inj hnew]
      exact ⟨fun h => h, fun _ h => h⟩
  whole i new hnew := by
    rcases Cells.getElem?_set_cases hhome hnew with ⟨rfl, rfl⟩ | ⟨-, hnew⟩
    · exact .inr ⟨home, hhome, htorn⟩
    · exact .inr ⟨new, hnew, rfl⟩

theorem Aging.append {homes : List HomeSession} (hnew : home.torn = false) :
    Aging homes (homes ++ [home]) where
  kept i old new hold hnew := by
    have hlt : i < homes.length := (List.getElem?_eq_some_iff.mp hold).1
    rw [List.getElem?_append_left hlt, hold] at hnew
    rw [← Option.some.inj hnew]
    exact ⟨fun h => h, fun _ h => h⟩
  whole i new hnew' := by
    rcases Cells.getElem?_append_cases hnew' with ⟨-, rfl⟩ | ⟨-, hnew'⟩
    · exact .inl hnew
    · exact .inr ⟨new, hnew', rfl⟩

/-- No call comes back to life. -/
theorem live_of_onward (hp : Placed s) (hcalls : Onward s.calls s'.calls)
    (hhomes : Aging s.homes s'.homes) (hlive : s'.live c = true) : s.live c = true := by
  obtain ⟨call', hcall', hrecorded⟩ := recorded_of_live hlive
  rcases hcalls c call' hcall' with ⟨call, hcall, -, -, hphase⟩ | ⟨hnot, -⟩
  · rcases hphase with hsame | ⟨hundelivered, hbefore⟩
    · cases hp' : call.phase with
      | delivered h =>
        obtain ⟨home, hhome, -⟩ := hp.target c call h hcall (by rw [hp']; rfl)
        rw [hp'] at hsame
        cases hhome' : s'.homes[h]? with
        | none => simp [Sys.live, hcall', hsame, hhome'] at hlive
        | some home' =>
          obtain ⟨hrunning, hanswered⟩ := hhomes.kept h home home' hhome hhome'
          have hold := (live_of_delivered hcall' hsame hhome').mp hlive
          exact (live_of_delivered hcall hp' hhome).mpr
            ⟨hrunning hold.1, fun hc => hold.2 (hanswered c hc)⟩
      | inserted _ | sending _ | failing _ | started | authorized | located _ | refused _
      | replied _ =>
        rw [hsame] at hrecorded
        apply live_of_phase hcall hrecorded
        intro h heq
        rw [hp'] at heq
        cases heq
    · exact live_of_phase hcall (hbefore hrecorded) hundelivered
  · rw [hnot] at hrecorded
    cases hrecorded

/-- A step that puts no record and takes none. -/
theorem Faithful.frame (hf : Faithful s) (hp : Placed s) (hcalls : Onward s.calls s'.calls)
    (hhomes : Aging s.homes s'.homes)
    (hpending : ∀ id record, s'.pending.lookup id = some record →
      s.pending.lookup id = some record) : Faithful s' where
  alone id record hrecord c call' hcall' hid hlive := by
    have hold := live_of_onward hp hcalls hhomes hlive
    rcases hcalls c call' hcall' with ⟨call, hcall, hsubmission, -⟩ | ⟨hnot, -⟩
    · rw [hsubmission] at hid
      exact hf.alone id record (hpending id record hrecord) c call hcall hid hold
    · obtain ⟨found, hfound, hrecorded⟩ := recorded_of_live hlive
      rw [hcall'] at hfound
      rw [← Option.some.inj hfound, hnot] at hrecorded
      cases hrecorded
  meant c call' t hcall' ht := by
    rcases hcalls c call' hcall' with ⟨call, hcall, -, htaken, hphase⟩ | ⟨-, hnone⟩
    · rw [htaken] at ht
      obtain ⟨hdelivered, horigin⟩ := hf.meant c call t hcall ht
      rcases hphase with hsame | ⟨hundelivered, -⟩
      · exact ⟨hsame.trans hdelivered, horigin⟩
      · exact absurd hdelivered (hundelivered _)
    · rw [hnone] at ht
      cases ht
  whole h home' hhome' := by
    rcases hhomes.whole h home' hhome' with hfine | ⟨home, hhome, hsame⟩
    · exact hfine
    · exact hsame.trans (hf.whole h home hhome)

theorem Call.Moves.onward {phase : Phase} (hm : call.Moves s c phase) :
    (∀ h, call.phase ≠ .delivered h) ∧
      (phase.recorded = true → call.phase.recorded = true) := by
  cases hm with
  | authorized hp | located hp _ | refused hp =>
    constructor
    · intro h heq
      rw [heq] at hp
      cases hp
    · exact fun hrecorded => by cases hrecorded
  | retired hp _ =>
    constructor
    · intro h heq
      rw [heq] at hp
      cases hp
    · exact fun hrecorded => by cases hrecorded
  | sending hp =>
    rw [hp]
    exact ⟨fun h heq => (by cases heq), fun _ => rfl⟩
  | failing hp =>
    rcases hp with hp | hp
    · rw [hp]
      exact ⟨fun h heq => (by cases heq), fun _ => rfl⟩
    · rw [hp]
      exact ⟨fun h heq => (by cases heq), fun _ => rfl⟩

/-- Where a session truly answers, the record of the request id is that of the call it answers. -/
theorem Faithful.record_of_answer {answer : HomeAnswer} {origin : Option ℕ} (hf : Faithful s)
    (hs : Sound s) (hp : Placed s) (hok : s.faithful (.answer h answer origin))
    (hhome : s.homes[h]? = some home) (hrunning : home.running = true)
    (hrecord : s.pending.lookup answer.requestId = some record) :
    origin = some record.forwardingId ∧ ∃ call, s.calls[record.forwardingId]? = some call ∧
      call.phase = .delivered h ∧ record.homeId = home.homeId ∧
      record.installed = answer.isInstalled := by
  obtain ⟨c, horigin, hreceived, hunanswered, call, hcall, hrequest, hinstalled⟩ := hok home hhome
  obtain ⟨found, hfound, hphase⟩ :=
    hp.carried h home c hhome (List.mem_append_left _ hreceived)
  have hsame : found = call := by
    rw [Option.mem_def.mp hcall] at hfound
    exact (Option.some.inj hfound).symm
  rw [hsame] at hphase
  have hlive := (live_of_delivered (Option.mem_def.mp hcall) hphase hhome).mpr
    ⟨hrunning, hunanswered⟩
  have heq := hf.alone _ record hrecord c call hcall hrequest.symm hlive
  obtain ⟨old, hold, hfor, -⟩ := hs.records _ record hrecord
  rw [← heq, Option.mem_def.mp hcall] at hold
  rw [← Option.some.inj hold] at hfor
  obtain ⟨target, htarget, hid⟩ := hp.target c call h hcall (by rw [hphase]; rfl)
  rw [hhome] at htarget
  rw [← heq]
  refine ⟨horigin, call, hcall, hphase, ?_, ?_⟩
  · rw [hfor.homeId, ← hid, ← Option.some.inj htarget]
  · rw [hfor.installed, hinstalled]

theorem Faithful.insert {relayId : String} {located : ℕ} (hf : Faithful s)
    (hcall : s.calls[c]? = some call) (hphase : call.phase = .located located)
    (hok : s.faithful (.insert c)) :
    Faithful { s.setCall c { call with phase := .inserted located } with
      pending := s.pending.insert call.submission.requestId (call.record c relayId) } where
  alone id record hrecord i new hnew hid hlive := by
    have hlivei : i ≠ c → s.live i = true := by
      intro hne
      have hcell : (s.calls.set c { call with phase := .inserted located })[i]? = s.calls[i]? := by
        rw [Cells.getElem?_set_of _ i hcall, if_neg (Ne.symm hne)]
      have hsame : Sys.live { s.setCall c { call with phase := .inserted located } with
          pending := s.pending.insert call.submission.requestId (call.record c relayId) } i =
            s.live i := by
        show Sys.live { s with
          calls := s.calls.set c { call with phase := .inserted located }
          pending := _ } i = _
        unfold Sys.live
        rw [hcell]
      rw [hsame] at hlive
      exact hlive
    rcases Table.lookup_insert_cases hrecord with ⟨rfl, rfl⟩ | ⟨hother, hold⟩
    · by_contra hne
      have hne : i ≠ c := hne
      rcases Cells.getElem?_set_cases hcall hnew with ⟨heq, -⟩ | ⟨-, hnew⟩
      · exact hne heq
      · have hlt : i < s.calls.length := (List.getElem?_eq_some_iff.mp hnew).1
        have hdead := hok call hcall i hlt new hnew hid
        rw [hlivei hne] at hdead
        cases hdead
    · rcases Cells.getElem?_set_cases hcall hnew with ⟨-, rfl⟩ | ⟨hne, hnew⟩
      · exact absurd hid.symm hother
      · exact hf.alone id record hold i new hnew hid (hlivei hne)
  meant i new t hnew ht := by
    rcases Cells.getElem?_set_cases hcall hnew with ⟨-, rfl⟩ | ⟨-, hnew⟩
    · obtain ⟨hdelivered, -⟩ := hf.meant c call t hcall ht
      rw [hphase] at hdelivered
      cases hdelivered
    · exact hf.meant i new t hnew ht
  whole := hf.whole

theorem Faithful.take {answer : HomeAnswer} {origin : Option ℕ} (hf : Faithful s) (hs : Sound s)
    (hp : Placed s) (hok : s.faithful (.answer h answer origin))
    (hhome : s.homes[h]? = some home) (hrunning : home.running = true)
    (hrecord : s.pending.lookup answer.requestId = some record)
    (hlater : home.Later { home' with completing := none }) :
    Faithful { s with
      pending := s.pending.erase answer.requestId
      calls := s.calls.modify record.forwardingId fun call =>
        { call with taken := some ⟨h, answer, origin⟩ }
      homes := s.homes.set h home' } := by
  obtain ⟨horigin, call, hcall, hphase, -⟩ :=
    hf.record_of_answer hs hp hok hhome hrunning hrecord
  rw [Cells.modify_eq_set _ hcall]
  have hother : Faithful { s with
      pending := s.pending.erase answer.requestId
      homes := s.homes.set h home' } := by
    apply hf.frame hp
    · exact Onward.refl _
    · exact Aging.set hhome hlater.running hlater.answered hlater.torn
    · exact fun id record hfound => (Table.lookup_erase_cases hfound).2
  have hlive : ∀ i, Sys.live { s with
      pending := s.pending.erase answer.requestId
      calls := s.calls.set record.forwardingId { call with taken := some ⟨h, answer, origin⟩ }
      homes := s.homes.set h home' } i = Sys.live { s with
      pending := s.pending.erase answer.requestId
      homes := s.homes.set h home' } i := by
    intro i
    have hphases : ((s.calls.set record.forwardingId
        { call with taken := some ⟨h, answer, origin⟩ })[i]?).map Call.phase =
          (s.calls[i]?).map Call.phase := by
      rw [Cells.getElem?_set_of _ i hcall]
      by_cases hi : record.forwardingId = i
      · rw [if_pos hi, ← hi, hcall]
        rfl
      · rw [if_neg hi]
    unfold Sys.live
    rw [hphases]
  refine ⟨?_, ?_, hother.whole⟩
  · intro id record' hrecord' c new hnew hid halive
    rw [hlive c] at halive
    rcases Cells.getElem?_set_cases hcall hnew with ⟨rfl, rfl⟩ | ⟨-, hnew⟩
    · exact hother.alone id record' hrecord' _ call hcall hid halive
    · exact hother.alone id record' hrecord' c new hnew hid halive
  · intro c new t hnew ht
    rcases Cells.getElem?_set_cases hcall hnew with ⟨rfl, rfl⟩ | ⟨-, hnew⟩
    · obtain rfl := Option.some.inj ht
      exact ⟨hphase, horigin⟩
    · exact hf.meant c new t hnew ht

theorem Faithful.step {a : Action} (hf : Faithful s) (hs : Sound s) (hp : Placed s)
    (hok : s.faithful a) (h : s.step config a = some s') : Faithful s' := by
  cases Effect.of_step h with
  | submits hrelay =>
    apply hf.frame hp
    · intro c call' hcall'
      rcases Cells.getElem?_append_cases hcall' with ⟨-, rfl⟩ | ⟨-, hcall'⟩
      · exact .inr ⟨rfl, rfl⟩
      · exact .inl ⟨call', hcall', rfl, rfl, .inl rfl⟩
    · exact Aging.refl _
    · exact fun _ _ hrecord => hrecord
  | moves hcall hmoves =>
    apply hf.frame hp
    · exact Onward.set hcall rfl rfl (.inr hmoves.onward)
    · exact Aging.refl _
    · exact fun _ _ hrecord => hrecord
  | retires hcall hphase _ _ =>
    apply hf.frame hp
    · refine Onward.set hcall rfl rfl (.inr ⟨?_, fun hrecorded => by cases hrecorded⟩)
      intro h heq
      rw [hphase] at heq
      cases heq
    · exact Aging.refl _
    · exact fun _ _ hrecord => (Table.lookup_erase_cases hrecord).2
  | inserts hcall hphase _ _ => exact hf.insert hcall hphase hok
  | delivers hcall hphase hhome _ =>
    apply hf.frame hp
    · refine Onward.set hcall rfl rfl (.inr ⟨?_, fun _ => by rw [hphase]; rfl⟩)
      intro h heq
      rw [hphase] at heq
      cases heq
    · exact Aging.set hhome (fun h => h) (fun _ h => h) rfl
    · exact fun _ _ hrecord => hrecord
  | replies hcall hphase _ =>
    apply hf.frame hp
    · refine Onward.set hcall rfl rfl (.inr ⟨?_, fun hrecorded => by cases hrecorded⟩)
      intro h heq
      rw [hphase] at heq
      cases heq
    · exact Aging.refl _
    · exact fun _ _ hrecord => hrecord
  | relays _ _ | clears | publishes | ticks _ =>
    apply hf.frame hp
    · exact Onward.refl _
    · exact Aging.refl _
    · exact fun _ _ hrecord => hrecord
  | cleans =>
    apply hf.frame hp
    · exact Onward.refl _
    · exact Aging.refl _
    · intro id record hrecord
      rw [Table.lookup_retain] at hrecord
      exact (Option.filter_eq_some_iff.mp hrecord).1
  | homes hhome hlater =>
    apply hf.frame hp
    · exact Onward.refl _
    · exact Aging.set hhome hlater.running hlater.answered hlater.torn
    · exact fun _ _ hrecord => hrecord
  | connects =>
    apply hf.frame hp
    · exact Onward.refl _
    · exact Aging.append rfl
    · exact fun _ _ hrecord => hrecord
  | tears hhome hrunning hrecord hwrong _ =>
    obtain ⟨-, -, -, -, hid, hinstalled⟩ :=
      hf.record_of_answer hs hp hok hhome hrunning hrecord
    rcases hwrong with hwrong | hwrong
    · exact absurd hid hwrong
    · exact absurd hinstalled hwrong
  | takes hhome hrunning hrecord _ _ _ _ hlater =>
    exact hf.take hs hp hok hhome hrunning hrecord hlater
  | composes hhome _ =>
    apply hf.frame hp
    · exact Onward.refl _
    · exact Aging.set hhome (fun h => h) (fun _ h => h) rfl
    · exact fun _ _ hrecord => hrecord
  | forwards hhome hcompleting _ =>
    obtain ⟨call, hcall, -⟩ := hs.completing _ _ _ hhome hcompleting
    dsimp only at hcall
    apply hf.frame hp
    · dsimp only
      rw [Cells.modify_eq_set _ hcall]
      exact Onward.set hcall rfl rfl (.inl rfl)
    · exact Aging.set hhome (fun h => h) (fun _ h => h) rfl
    · exact fun _ _ hrecord => hrecord

theorem Faithful.of_reachable (h : (machine config).ReachableWhere Sys.faithful s) :
    Faithful s := by
  apply h.invariant
  · refine ⟨?_, ?_, ?_⟩
    · intro id record hrecord
      cases hrecord
    · intro c call t hcall
      cases hcall
    · intro h home hhome
      cases hhome
  · intro t a t' hreach hf hok hstep
    exact hf.step (Sound.of_reachable hreach.reachable) (Placed.of_reachable hreach.reachable) hok
      hstep

/-- An answer that a Relay session gets from a Home is what a session of the Home said to this very
submission. -/
def Meant (s : Sys) (r : ℕ) (e : Entry) : Prop :=
  ∃ call h answer home seeds, s.calls[e.call]? = some call ∧ call.relay = r ∧
    call.phase = .delivered h ∧ call.taken = some ⟨h, answer, some e.call⟩ ∧
    s.homes[h]? = some home ∧ answer ∈ home.said ∧ answer.Fits home.homeId call.submission ∧
    e.answer = answer.forward call.submission.isBootstrap seeds

/-- Where Homes answer what they were asked, once, and a request id is used again only when no Home
can answer its last use any more, each submission is answered at most once in all, by what its own
Home said to it or by the Server, and no answer ends the session of a Home. -/
theorem answered_once (h : (machine config).ReachableWhere Sys.faithful s) :
    (∀ (i : ℕ) home, s.homes[i]? = some home → home.torn = false) ∧
      ∀ (r : ℕ) relay, s.relays[r]? = some relay → (relay.answers.map Entry.call).Nodup ∧
        ∀ e ∈ relay.answers, e.byHome = true → Meant s r e := by
  have hs := Sound.of_reachable h.reachable
  have hf := Faithful.of_reachable h
  refine ⟨hf.whole, ?_⟩
  intro r relay hrelay
  have hby : ∀ e ∈ relay.answers, e.byHome = true → Meant s r e := by
    intro e he hby
    obtain ⟨call, hcall, hr, hof⟩ := hs.entries r relay hrelay e he
    rw [Entry.Of, if_pos hby] at hof
    obtain ⟨⟨i, answer, origin⟩, seeds, ht, hanswer⟩ := hs.forwarded _ call _ hcall hof
    obtain ⟨hdelivered, horigin⟩ := hf.meant _ call _ hcall ht
    obtain ⟨-, home, hhome, hsaid, hfits⟩ := hs.taken _ call _ hcall ht
    dsimp only at hdelivered horigin hhome hsaid hfits hanswer
    rw [horigin] at ht
    exact ⟨call, i, answer, home, seeds, hcall, hr, hdelivered, ht, hhome, hsaid, hfits, hanswer⟩
  refine ⟨?_, hby⟩
  have hkind : ∀ e ∈ relay.answers, ∀ e' ∈ relay.answers, e.call = e'.call →
      e.byHome = e'.byHome := by
    have hclash : ∀ e ∈ relay.answers, ∀ e' ∈ relay.answers, e.call = e'.call →
        e.byHome = true → e'.byHome = false → False := by
      intro e he e' he' heq htrue hfalse
      obtain ⟨call, i, -, -, -, hcall, -, hdelivered, -⟩ := hby e he htrue
      obtain ⟨call', hcall', -, hof⟩ := hs.entries r relay hrelay e' he'
      rw [Entry.Of, hfalse] at hof
      obtain ⟨error, hreplied, -⟩ := hof
      rw [← heq, hcall] at hcall'
      rw [← Option.some.inj hcall', hdelivered] at hreplied
      cases hreplied
    intro e he e' he' heq
    cases hkind : e.byHome with
    | true =>
      cases hkind' : e'.byHome with
      | true => rfl
      | false => exact (hclash e he e' he' heq hkind hkind').elim
    | false =>
      cases hkind' : e'.byHome with
      | true => exact (hclash e' he' e he heq.symm hkind' hkind).elim
      | false => rfl
  have hinj : ∀ e ∈ relay.answers, ∀ e' ∈ relay.answers, e.call = e'.call → e = e' := by
    intro e he e' he' heq
    apply List.inj_on_of_nodup_map (hs.distinct r relay hrelay) he he'
    exact Prod.ext heq (hkind e he e' he' heq)
  exact (List.Nodup.of_map Entry.key (hs.distinct r relay hrelay)).map_on hinj

theorem sampleEnd_faithful : (machine sampleConfig).ReachableWhere Sys.faithful sampleEnd := by
  have hrun : (machine sampleConfig).execWhere Sys.faithful sampleRun = some sampleEnd := rfl
  exact Machine.reachableWhere_of_execWhere hrun

theorem answered_once_sample : (∀ (h : ℕ) home, sampleEnd.homes[h]? = some home →
    home.torn = false) ∧ ∀ relay, sampleEnd.relays[0]? = some relay →
      (relay.answers.map Entry.call).Nodup := by
  have honce := answered_once sampleEnd_faithful
  exact ⟨honce.1, fun relay hrelay => (honce.2 0 relay hrelay).1⟩

end FlowSplice.Server.Enrollments
