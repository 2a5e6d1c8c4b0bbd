import FlowSplice.Lib.Log
import FlowSplice.Server.Enrollments

/-! What the Relay and Home sessions of an enrollment get, over whole runs. -/
namespace FlowSplice.Server.Enrollments

/-- The record of a call may be there. -/
def Phase.recorded : Phase → Bool
  | .inserted _ | .sending _ | .failing _ | .delivered _ => true
  | _ => false

/-- The record under a request id is that of the call. -/
structure PendingEnrollment.For (record : PendingEnrollment) (id : Uuid) (call : Call) : Prop where
  requestId : id = call.submission.requestId
  travelId : record.travelId = call.submission.travelId
  homeId : record.homeId = call.submission.homeId
  relay : record.relay = call.relay
  bootstrap : record.bootstrap = call.submission.isBootstrap
  installed : record.installed = call.submission.isInstalled
  expires : record.expires = call.expires

/-- An answer of a Home is for what was submitted to it. -/
structure HomeAnswer.Fits (answer : HomeAnswer) (homeId : String) (submission : Submission) :
    Prop where
  homeId : submission.homeId = homeId
  requestId : answer.requestId = submission.requestId
  installed : answer.isInstalled = submission.isInstalled

/-- A Relay is told what a Home said for its call, or why the Server has refused it. -/
def Entry.Of (entry : Entry) (call : Call) : Prop :=
  if entry.byHome then call.forwarded = some entry.answer
  else ∃ error, call.phase = .replied error ∧ entry.answer = call.submission.refusal error

def Entry.key (entry : Entry) : ℕ × Bool := (entry.call, entry.byHome)

/-- What records, completions and answers say of the calls. -/
structure Sound (s : Sys) : Prop where
  records : ∀ id record, s.pending.lookup id = some record →
    ∃ call, s.calls[record.forwardingId]? = some call ∧ record.For id call ∧ call.taken = none ∧
      call.phase.recorded = true
  completing : ∀ (h : ℕ) home completion, s.homes[h]? = some home →
    home.completing = some completion →
      ∃ call, s.calls[completion.record.forwardingId]? = some call ∧
        completion.record.For completion.answer.requestId call ∧
        call.taken = some ⟨h, completion.answer, completion.origin⟩ ∧ call.forwarded = none ∧
        ∀ message ∈ completion.message, ∃ seeds,
          message = completion.answer.forward completion.record.bootstrap seeds
  taken : ∀ (c : ℕ) (call : Call) t, s.calls[c]? = some call → call.taken = some t →
    call.phase.early = false ∧ ∃ home, s.homes[t.home]? = some home ∧ t.answer ∈ home.said ∧
      t.answer.Fits home.homeId call.submission
  forwarded : ∀ (c : ℕ) (call : Call) a, s.calls[c]? = some call → call.forwarded = some a →
    ∃ t seeds, call.taken = some t ∧ a = t.answer.forward call.submission.isBootstrap seeds
  entries : ∀ (r : ℕ) (relay : RelaySession), s.relays[r]? = some relay → ∀ e ∈ relay.answers,
    ∃ call, s.calls[e.call]? = some call ∧ call.relay = r ∧ e.Of call
  distinct : ∀ (r : ℕ) (relay : RelaySession), s.relays[r]? = some relay →
    (relay.answers.map Entry.key).Nodup

/-- The call moves on with its record and its answers as they are. -/
structure Call.Same (call call' : Call) : Prop where
  relay : call'.relay = call.relay
  submission : call'.submission = call.submission
  expires : call'.expires = call.expires
  taken : call'.taken = call.taken
  forwarded : call'.forwarded = call.forwarded
  early : call.phase.early = false → call'.phase.early = false
  replied : ∀ error, call.phase = .replied error → call'.phase = .replied error

/-- Each call is as before or has moved on, and new ones have got nothing. -/
structure Follows (calls calls' : List Call) : Prop where
  kept : ∀ (c : ℕ) (call : Call), calls[c]? = some call →
    ∃ call', calls'[c]? = some call' ∧ call.Same call'
  before : ∀ (c : ℕ) (call' : Call), calls'[c]? = some call' →
    (∃ call, calls[c]? = some call ∧ call.Same call') ∨ call'.taken = none ∧ call'.forwarded = none

/-- Home sessions stay, with what was said in them. -/
def Keeps (homes homes' : List HomeSession) : Prop :=
  ∀ (h : ℕ) home, homes[h]? = some home →
    ∃ home', homes'[h]? = some home' ∧ home'.homeId = home.homeId ∧
      ∀ answer ∈ home.said, answer ∈ home'.said

/-- Home sessions stay, and no completion begins. -/
structure Steady (homes homes' : List HomeSession) : Prop where
  kept : Keeps homes homes'
  completing : ∀ (h : ℕ) home' completion, homes'[h]? = some home' →
    home'.completing = some completion →
      ∃ home, homes[h]? = some home ∧ home.completing = some completion

/-- The session that a call has found for its Home. -/
def Phase.target : Phase → Option ℕ
  | .located home | .inserted home | .sending home | .delivered home => some home
  | _ => none

/-- The call has not ended. -/
def Phase.active : Phase → Bool
  | .replied _ | .delivered _ => false
  | _ => true

/-- Submissions go to sessions of the Homes that they name, and a Relay session runs one call. -/
structure Placed (s : Sys) : Prop where
  senders : ∀ homeId h, s.senders.lookup homeId = some h →
    ∃ home, s.homes[h]? = some home ∧ home.homeId = homeId
  target : ∀ (c : ℕ) (call : Call) h, s.calls[c]? = some call → call.phase.target = some h →
    ∃ home, s.homes[h]? = some home ∧ home.homeId = call.submission.homeId
  carried : ∀ (h : ℕ) (home : HomeSession) c, s.homes[h]? = some home →
    c ∈ home.received ++ home.queue → ∃ call, s.calls[c]? = some call ∧ call.phase = .delivered h
  busy : ∀ (r : ℕ) (relay : RelaySession) c, s.relays[r]? = some relay → relay.call = some c →
    ∃ call, s.calls[c]? = some call ∧ call.relay = r ∧ call.phase.active = true

/-- Home sessions are not lost. -/
def Stays (homes homes' : List HomeSession) : Prop :=
  ∀ (h : ℕ) home, homes[h]? = some home → ∃ home', homes'[h]? = some home' ∧
    home'.homeId = home.homeId

variable {config : Config} {s s' : Sys} {calls : List Call} {relays : List RelaySession}
  {homes : List HomeSession} {call call' : Call} {relay relay' : RelaySession}
  {home home' : HomeSession} {record : PendingEnrollment} {id : Uuid} {c r h now : ℕ}

theorem Call.Same.refl (call : Call) : call.Same call :=
  ⟨rfl, rfl, rfl, rfl, rfl, fun h => h, fun _ h => h⟩

theorem PendingEnrollment.For.same (h : record.For id call) (hs : call.Same call') :
    record.For id call' := by
  obtain ⟨h1, h2, h3, h4, h5, h6, h7⟩ := h
  refine ⟨?_, ?_, ?_, ?_, ?_, ?_, ?_⟩
  · rw [hs.submission, h1]
  · rw [hs.submission, h2]
  · rw [hs.submission, h3]
  · rw [hs.relay, h4]
  · rw [hs.submission, h5]
  · rw [hs.submission, h6]
  · rw [hs.expires, h7]

theorem Entry.Of.same {e : Entry} (h : e.Of call) (hs : call.Same call') : e.Of call' := by
  unfold Entry.Of at h ⊢
  by_cases hhome : e.byHome = true
  · rw [if_pos hhome] at h ⊢
    rw [hs.forwarded, h]
  · rw [if_neg hhome] at h ⊢
    obtain ⟨error, hphase, hanswer⟩ := h
    rw [hs.submission]
    exact ⟨error, hs.replied error hphase, hanswer⟩

theorem Follows.refl (calls : List Call) : Follows calls calls where
  kept _ call hcall := ⟨call, hcall, .refl call⟩
  before _ call hcall := .inl ⟨call, hcall, .refl call⟩

theorem Follows.set (hcall : calls[c]? = some call) (hs : call.Same call') :
    Follows calls (calls.set c call') where
  kept i old hold := by
    obtain ⟨new, hnew, ⟨-, rfl, rfl⟩ | ⟨-, rfl⟩⟩ := Cells.exists_getElem?_set call' hcall hold
    · exact ⟨_, hnew, hs⟩
    · exact ⟨_, hnew, .refl _⟩
  before i new hnew := by
    rcases Cells.getElem?_set_cases hcall hnew with ⟨rfl, rfl⟩ | ⟨-, hnew⟩
    · exact .inl ⟨call, hcall, hs⟩
    · exact .inl ⟨new, hnew, .refl new⟩

theorem Follows.append (htaken : call.taken = none) (hforwarded : call.forwarded = none) :
    Follows calls (calls ++ [call]) where
  kept i old hold := by
    have hlt : i < calls.length := (List.getElem?_eq_some_iff.mp hold).1
    rw [List.getElem?_append_left hlt]
    exact ⟨old, hold, .refl old⟩
  before i new hnew := by
    rcases Cells.getElem?_append_cases hnew with ⟨-, rfl⟩ | ⟨-, hnew⟩
    · exact .inr ⟨htaken, hforwarded⟩
    · exact .inl ⟨new, hnew, .refl new⟩

theorem Keeps.set (hhome : homes[h]? = some home) (hid : home'.homeId = home.homeId)
    (hsaid : ∀ answer ∈ home.said, answer ∈ home'.said) : Keeps homes (homes.set h home') := by
  intro i old hold
  obtain ⟨new, hnew, ⟨-, rfl, rfl⟩ | ⟨-, rfl⟩⟩ := Cells.exists_getElem?_set home' hhome hold
  · exact ⟨_, hnew, hid, hsaid⟩
  · exact ⟨_, hnew, rfl, fun _ h => h⟩

theorem Steady.refl (homes : List HomeSession) : Steady homes homes where
  kept _ home hhome := ⟨home, hhome, rfl, fun _ h => h⟩
  completing _ home _ hhome hcompleting := ⟨home, hhome, hcompleting⟩

theorem Steady.set (hhome : homes[h]? = some home) (hid : home'.homeId = home.homeId)
    (hsaid : ∀ answer ∈ home.said, answer ∈ home'.said)
    (hcompleting : home'.completing = none ∨ home'.completing = home.completing) :
    Steady homes (homes.set h home') where
  kept := Keeps.set hhome hid hsaid
  completing i new completion hnew hsome := by
    rcases Cells.getElem?_set_cases hhome hnew with ⟨rfl, rfl⟩ | ⟨-, hnew⟩
    · rcases hcompleting with hnone | hsame
      · rw [hnone] at hsome
        cases hsome
      · exact ⟨home, hhome, hsame ▸ hsome⟩
    · exact ⟨new, hnew, hsome⟩

theorem Steady.append (hcompleting : home.completing = none) : Steady homes (homes ++ [home]) where
  kept i old hold := by
    have hlt : i < homes.length := (List.getElem?_eq_some_iff.mp hold).1
    rw [List.getElem?_append_left hlt]
    exact ⟨old, hold, rfl, fun _ h => h⟩
  completing i new completion hnew hsome := by
    rcases Cells.getElem?_append_cases hnew with ⟨-, rfl⟩ | ⟨-, hnew⟩
    · rw [hcompleting] at hsome
      cases hsome
    · exact ⟨new, hnew, hsome⟩

theorem Sound.taken_of_keeps {t : Taken} (hs : Sound s) (hkept : Keeps s.homes homes)
    (hcall : s.calls[c]? = some call) (htaken : call.taken = some t) :
    call.phase.early = false ∧ ∃ home, homes[t.home]? = some home ∧ t.answer ∈ home.said ∧
      t.answer.Fits home.homeId call.submission := by
  obtain ⟨hearly, home, hhome, hsaid, hfits⟩ := hs.taken c call t hcall htaken
  obtain ⟨home', hhome', hid, hmore⟩ := hkept _ home hhome
  exact ⟨hearly, home', hhome', hmore _ hsaid, hid ▸ hfits⟩

/-- A step that takes no record and brings no answer. -/
theorem Sound.frame (hs : Sound s) (hcalls : Follows s.calls s'.calls)
    (hrelays : Quiet s.relays s'.relays) (hhomes : Steady s.homes s'.homes)
    (hpending : ∀ id record, s'.pending.lookup id = some record →
      s.pending.lookup id = some record ∧ ∀ call', s'.calls[record.forwardingId]? = some call' →
        call'.phase.recorded = true) :
    Sound s' where
  records id record hrecord := by
    obtain ⟨hold, hphase⟩ := hpending id record hrecord
    obtain ⟨call, hcall, hfor, htaken, -⟩ := hs.records id record hold
    obtain ⟨call', hcall', hsame⟩ := hcalls.kept _ call hcall
    exact ⟨call', hcall', hfor.same hsame, hsame.taken.trans htaken, hphase call' hcall'⟩
  completing h home' completion hhome' hcompletion := by
    obtain ⟨home, hhome, hcompleting⟩ := hhomes.completing h home' completion hhome' hcompletion
    obtain ⟨call, hcall, hfor, htaken, hforwarded, hmessage⟩ :=
      hs.completing h home completion hhome hcompleting
    obtain ⟨call', hcall', hsame⟩ := hcalls.kept _ call hcall
    exact ⟨call', hcall', hfor.same hsame, hsame.taken.trans htaken,
      hsame.forwarded.trans hforwarded, hmessage⟩
  taken c call' t hcall' htaken := by
    rcases hcalls.before c call' hcall' with ⟨call, hcall, hsame⟩ | ⟨hnone, -⟩
    · rw [hsame.taken] at htaken
      obtain ⟨hearly, hrest⟩ := hs.taken_of_keeps hhomes.kept hcall htaken
      rw [hsame.submission]
      exact ⟨hsame.early hearly, hrest⟩
    · rw [hnone] at htaken
      cases htaken
  forwarded c call' a hcall' hforwarded := by
    rcases hcalls.before c call' hcall' with ⟨call, hcall, hsame⟩ | ⟨-, hnone⟩
    · rw [hsame.forwarded] at hforwarded
      rw [hsame.taken, hsame.submission]
      exact hs.forwarded c call a hcall hforwarded
    · rw [hnone] at hforwarded
      cases hforwarded
  entries r relay' hrelay' e he := by
    rcases hrelays r relay' hrelay' with hempty | ⟨relay, hrelay, hsub⟩
    · rw [hempty] at he
      cases he
    · obtain ⟨call, hcall, hr, hof⟩ := hs.entries r relay hrelay e (hsub.subset he)
      obtain ⟨call', hcall', hsame⟩ := hcalls.kept _ call hcall
      exact ⟨call', hcall', hsame.relay.trans hr, hof.same hsame⟩
  distinct r relay' hrelay' := by
    rcases hrelays r relay' hrelay' with hempty | ⟨relay, hrelay, hsub⟩
    · rw [hempty]
      exact List.nodup_nil
    · exact (hsub.map _).nodup (hs.distinct r relay hrelay)

/-- A call moves on to a phase in which its record may stay. -/
theorem Sound.advance (hs : Sound s) (phase : Phase) (hcall : s.calls[c]? = some call)
    (hrecorded : call.phase.recorded = true → phase.recorded = true)
    (hearly : call.phase.early = false → phase.early = false)
    (hreplied : ∀ error, call.phase ≠ .replied error)
    (hcalls : s'.calls = s.calls.set c { call with phase }) (hpending : s'.pending = s.pending)
    (hrelays : Quiet s.relays s'.relays) (hhomes : Steady s.homes s'.homes) : Sound s' := by
  have hsame : call.Same { call with phase } :=
    ⟨rfl, rfl, rfl, rfl, rfl, hearly, fun error h => absurd h (hreplied error)⟩
  apply hs.frame
  · rw [hcalls]
    exact Follows.set hcall hsame
  · exact hrelays
  · exact hhomes
  · intro id record hrecord
    rw [hpending] at hrecord
    refine ⟨hrecord, ?_⟩
    intro call' hcall'
    obtain ⟨old, hold, -, -, hphase⟩ := hs.records id record hrecord
    rw [hcalls] at hcall'
    rcases Cells.getElem?_set_cases hcall hcall' with ⟨heq, rfl⟩ | ⟨-, hcall'⟩
    · rw [heq, hcall] at hold
      rw [← Option.some.inj hold] at hphase
      exact hrecorded hphase
    · rw [hold] at hcall'
      rw [← Option.some.inj hcall']
      exact hphase

/-- Records go without an answer. -/
theorem Sound.forget (hs : Sound s) (hcalls : s'.calls = s.calls)
    (hpending : ∀ id record, s'.pending.lookup id = some record →
      s.pending.lookup id = some record)
    (hrelays : Quiet s.relays s'.relays) (hhomes : Steady s.homes s'.homes) : Sound s' := by
  apply hs.frame
  · rw [hcalls]
    exact Follows.refl _
  · exact hrelays
  · exact hhomes
  · intro id record hrecord
    have hold := hpending id record hrecord
    refine ⟨hold, ?_⟩
    intro call' hcall'
    obtain ⟨call, hcall, -, -, hphase⟩ := hs.records id record hold
    rw [hcalls, hcall] at hcall'
    rw [← Option.some.inj hcall']
    exact hphase

/-- The record of a call is put where none is. -/
theorem Sound.insert {relayId : String} {located : ℕ} (hs : Sound s)
    (hcall : s.calls[c]? = some call) (hphase : call.phase = .located located) :
    Sound { s.setCall c { call with phase := .inserted located } with
      pending := s.pending.insert call.submission.requestId (call.record c relayId) } := by
  have hsame : call.Same { call with phase := .inserted located } := by
    refine ⟨rfl, rfl, rfl, rfl, rfl, fun _ => rfl, ?_⟩
    intro error h
    rw [hphase] at h
    cases h
  have hnone : call.taken = none := by
    cases htaken : call.taken with
    | none => rfl
    | some t =>
      obtain ⟨hearly, -⟩ := hs.taken c call t hcall htaken
      rw [hphase] at hearly
      cases hearly
  have hlt : c < s.calls.length := (List.getElem?_eq_some_iff.mp hcall).1
  have hold : Sound { s with calls := s.calls.set c { call with phase := .inserted located } } := by
    apply hs.advance (.inserted located) hcall
    · exact fun _ => rfl
    · exact fun _ => rfl
    · intro error h
      rw [hphase] at h
      cases h
    · rfl
    · rfl
    · exact Quiet.refl _
    · exact Steady.refl _
  refine ⟨?_, hold.completing, hold.taken, hold.forwarded, hold.entries, hold.distinct⟩
  intro id record hrecord
  rcases Table.lookup_insert_cases hrecord with ⟨rfl, rfl⟩ | ⟨-, hrecord⟩
  · refine ⟨_, List.getElem?_set_self hlt, ?_, hnone, rfl⟩
    exact ⟨rfl, rfl, rfl, rfl, rfl, rfl, rfl⟩
  · exact hold.records id record hrecord

theorem Phase.early_of_recorded {phase : Phase} (h : phase.recorded = true) :
    phase.early = false := by
  cases phase <;> first | rfl | cases h

theorem Sound.forwarded_eq_none (hs : Sound s) (hcall : s.calls[c]? = some call)
    (htaken : call.taken = none) : call.forwarded = none := by
  cases hforwarded : call.forwarded with
  | none => rfl
  | some a =>
    obtain ⟨t, -, ht, -⟩ := hs.forwarded c call a hcall hforwarded
    rw [htaken] at ht
    cases ht

/-- No other call of a record has the same number. -/
theorem Sound.forwardingId_ne (hs : Sound s) {id' : Uuid} {record' : PendingEnrollment}
    (hrecord : s.pending.lookup id = some record) (hrecord' : s.pending.lookup id' = some record')
    (hne : id' ≠ id) : record'.forwardingId ≠ record.forwardingId := by
  intro heq
  obtain ⟨call, hcall, hfor, -⟩ := hs.records id record hrecord
  obtain ⟨call', hcall', hfor', -⟩ := hs.records id' record' hrecord'
  rw [heq, hcall] at hcall'
  rw [← Option.some.inj hcall'] at hfor'
  exact hne (hfor'.requestId.trans hfor.requestId.symm)

/-- The Relay session writes why a call of it is refused. -/
theorem Sound.reply {error : String} (hs : Sound s) (hcall : s.calls[c]? = some call)
    (hphase : call.phase = .refused error) (hrelay : s.relays[call.relay]? = some relay) :
    Sound ((s.setRelay call.relay { relay with
      call := none
      written := relay.written ++ [⟨c, false, call.submission.refusal error⟩] }).setCall c
        { call with phase := .replied error }) := by
  have hold : Sound { s with calls := s.calls.set c { call with phase := .replied error } } := by
    apply hs.advance (.replied error) hcall
    · rw [hphase]
      exact fun h => h
    · exact fun _ => rfl
    · intro e h
      rw [hphase] at h
      cases h
    · rfl
    · rfl
    · exact Quiet.refl _
    · exact Steady.refl _
  have hlt : c < s.calls.length := (List.getElem?_eq_some_iff.mp hcall).1
  refine ⟨hold.records, hold.completing, hold.taken, hold.forwarded, ?_, ?_⟩
  · intro r relay' hrelay' e he
    rcases Cells.getElem?_set_cases hrelay hrelay' with ⟨rfl, rfl⟩ | ⟨-, hrelay'⟩
    · have hmem : e ∈ relay.answers ∨ e = ⟨c, false, call.submission.refusal error⟩ := by
        simp only [RelaySession.answers, List.mem_append, List.mem_singleton] at he ⊢
        rcases he with (he | he) | he
        · exact .inl (.inl he)
        · exact .inr he
        · exact .inl (.inr he)
      rcases hmem with hmem | rfl
      · exact hold.entries _ relay hrelay e hmem
      · exact ⟨_, List.getElem?_set_self hlt, rfl, error, rfl, rfl⟩
    · exact hold.entries r relay' hrelay' e he
  · intro r relay' hrelay'
    rcases Cells.getElem?_set_cases hrelay hrelay' with ⟨rfl, rfl⟩ | ⟨-, hrelay'⟩
    · have hperm : (relay.written ++ [(⟨c, false, call.submission.refusal error⟩ : Entry)] ++
          relay.queue).Perm (⟨c, false, call.submission.refusal error⟩ :: relay.answers) := by
        rw [List.append_assoc]
        exact List.perm_middle
      refine ((hperm.map Entry.key).nodup_iff).mpr ?_
      rw [List.map_cons, List.nodup_cons]
      refine ⟨?_, hs.distinct _ relay hrelay⟩
      intro hmem
      obtain ⟨e, he, hkey⟩ := List.mem_map.mp hmem
      obtain ⟨old, hfound, -, hof⟩ := hs.entries _ relay hrelay e he
      have hc : e.call = c := congrArg Prod.fst hkey
      have hby : e.byHome = false := congrArg Prod.snd hkey
      rw [hc, hcall] at hfound
      rw [← Option.some.inj hfound, Entry.Of, hby] at hof
      obtain ⟨e', hreplied, -⟩ := hof
      rw [hphase] at hreplied
      cases hreplied
    · exact hold.distinct r relay' hrelay'

/-- A Home's answer takes the record of the call that it is for. -/
theorem Sound.take {answer : HomeAnswer} {origin : Option ℕ} (hs : Sound s)
    (hhome : s.homes[h]? = some home)
    (hrecord : s.pending.lookup answer.requestId = some record)
    (hid : record.homeId = home.homeId) (hinstalled : record.installed = answer.isInstalled)
    (hid' : home'.homeId = home.homeId) (hsaid : home'.said = home.said ++ [answer])
    (hcompleting : home'.completing = none ∨ home'.completing = some { record, answer, origin }) :
    Sound { s with
      pending := s.pending.erase answer.requestId
      calls := s.calls.modify record.forwardingId fun call =>
        { call with taken := some ⟨h, answer, origin⟩ }
      homes := s.homes.set h home' } := by
  obtain ⟨call, hcall, hfor, hnone, hphase⟩ := hs.records _ record hrecord
  have hforwarded := hs.forwarded_eq_none hcall hnone
  have hlt : record.forwardingId < s.calls.length := (List.getElem?_eq_some_iff.mp hcall).1
  rw [Cells.modify_eq_set _ hcall]
  have hother : ∀ (c : ℕ) (old : Call), s.calls[c]? = some old → c ≠ record.forwardingId →
      (s.calls.set record.forwardingId { call with taken := some ⟨h, answer, origin⟩ })[c]? =
        some old := by
    intro c old hold hne
    rw [Cells.getElem?_set_of _ c hcall, if_neg (Ne.symm hne)]
    exact hold
  have hkept : Keeps s.homes (s.homes.set h home') := by
    apply Keeps.set hhome hid'
    intro a ha
    rw [hsaid]
    exact List.mem_append_left _ ha
  refine ⟨?_, ?_, ?_, ?_, ?_, ?_⟩
  · intro id record' hrecord'
    obtain ⟨hne, hold⟩ := Table.lookup_erase_cases hrecord'
    obtain ⟨old, hfound, hrest⟩ := hs.records id record' hold
    exact ⟨old, hother _ old hfound (hs.forwardingId_ne hrecord hold hne), hrest⟩
  · intro i new completion hnew hsome
    rcases Cells.getElem?_set_cases hhome hnew with ⟨rfl, rfl⟩ | ⟨-, hold⟩
    · rcases hcompleting with hnot | hnew
      · rw [hnot] at hsome
        cases hsome
      · rw [hnew] at hsome
        obtain rfl := Option.some.inj hsome
        refine ⟨_, List.getElem?_set_self hlt, ?_, rfl, hforwarded, by simp⟩
        exact ⟨hfor.requestId, hfor.travelId, hfor.homeId, hfor.relay, hfor.bootstrap,
          hfor.installed, hfor.expires⟩
    · obtain ⟨old, hfound, hrest⟩ := hs.completing i new completion hold hsome
      refine ⟨old, hother _ old hfound ?_, hrest⟩
      intro heq
      rw [heq, hcall] at hfound
      rw [← Option.some.inj hfound, hnone] at hrest
      cases hrest.2.1
  · intro c new t hnew htaken
    rcases Cells.getElem?_set_cases hcall hnew with ⟨rfl, rfl⟩ | ⟨-, hold⟩
    · obtain rfl := Option.some.inj htaken
      have hlth : h < s.homes.length := (List.getElem?_eq_some_iff.mp hhome).1
      refine ⟨Phase.early_of_recorded hphase, home', List.getElem?_set_self hlth, ?_, ?_⟩
      · rw [hsaid]
        exact Log.mem_append_self
      · refine ⟨?_, hfor.requestId, ?_⟩
        · rw [hid', ← hid, hfor.homeId]
        · rw [← hinstalled, hfor.installed]
    · exact hs.taken_of_keeps hkept hold htaken
  · intro c new a hnew ha
    rcases Cells.getElem?_set_cases hcall hnew with ⟨rfl, rfl⟩ | ⟨-, hold⟩
    · rw [hforwarded] at ha
      cases ha
    · exact hs.forwarded c new a hold ha
  · intro r relay hrelay e he
    obtain ⟨old, hfound, hr, hof⟩ := hs.entries r relay hrelay e he
    obtain ⟨new, hnew, ⟨heq, rfl, rfl⟩ | ⟨-, rfl⟩⟩ :=
      Cells.exists_getElem?_set { call with taken := some ⟨h, answer, origin⟩ } hcall hfound
    · exact ⟨_, hnew, hr, hof⟩
    · exact ⟨_, hnew, hr, hof⟩
  · exact hs.distinct

/-- The message to the Relay is made. -/
theorem Sound.compose {completion : Completion} {seeds : List String} (hs : Sound s)
    (hhome : s.homes[h]? = some home) (hcompleting : home.completing = some completion) :
    Sound (s.setHome h { home with completing := some { completion with
      message := some (completion.answer.forward completion.record.bootstrap seeds) } }) := by
  refine ⟨hs.records, ?_, ?_, hs.forwarded, hs.entries, hs.distinct⟩
  · intro i new completion' hnew hsome
    rcases Cells.getElem?_set_cases hhome hnew with ⟨rfl, rfl⟩ | ⟨-, hnew⟩
    · obtain rfl := Option.some.inj hsome
      obtain ⟨call, hcall, hfor, htaken, hforwarded, -⟩ :=
        hs.completing _ home completion hhome hcompleting
      refine ⟨call, hcall, hfor, htaken, hforwarded, ?_⟩
      intro message hmessage
      exact ⟨seeds, (Option.some.inj hmessage).symm⟩
    · exact hs.completing i new completion' hnew hsome
  · intro c call t hcall ht
    exact hs.taken_of_keeps (Keeps.set hhome rfl fun _ h => h) hcall ht

/-- An answer comes to the Relay session that waits for it. -/
theorem Sound.forward {answer : HomeAnswer} {origin : Option ℕ} {message : Answer} (hs : Sound s)
    (hhome : s.homes[h]? = some home)
    (hcompleting : home.completing = some ⟨record, answer, origin, some message⟩)
    (hrelay : s.relays[record.relay]? = some relay) :
    Sound { (s.setRelay record.relay { relay with
        queue := relay.queue ++ [⟨record.forwardingId, true, message⟩] }).setHome h
          { home with completing := none } with
      calls := s.calls.modify record.forwardingId fun call =>
        { call with forwarded := some message } } := by
  obtain ⟨call, hcall, hfor, htaken, hnone, hmessage⟩ := hs.completing h home _ hhome hcompleting
  dsimp only at hcall hfor htaken hmessage
  obtain ⟨seeds, hseeds⟩ := hmessage message rfl
  have hlt : record.forwardingId < s.calls.length := (List.getElem?_eq_some_iff.mp hcall).1
  have hcell : ∀ (c : ℕ) (old : Call), s.calls[c]? = some old → c ≠ record.forwardingId →
      (s.calls.set record.forwardingId { call with forwarded := some message })[c]? = some old := by
    intro c old hold hne
    rw [Cells.getElem?_set_of _ c hcall, if_neg (Ne.symm hne)]
    exact hold
  have hnew : (⟨record.forwardingId, true, message⟩ : Entry).key ∉ relay.answers.map Entry.key := by
    intro hmem
    obtain ⟨e, he, hkey⟩ := List.mem_map.mp hmem
    obtain ⟨old, hfound, -, hof⟩ := hs.entries _ relay hrelay e he
    have hc : e.call = record.forwardingId := congrArg Prod.fst hkey
    have hby : e.byHome = true := congrArg Prod.snd hkey
    rw [hc, hcall] at hfound
    rw [← Option.some.inj hfound, Entry.Of, if_pos hby, hnone] at hof
    cases hof
  have hentries : ∀ (r : ℕ) old, s.relays[r]? = some old → ∀ e ∈ old.answers, ∃ new,
      (s.calls.set record.forwardingId { call with forwarded := some message })[e.call]? =
        some new ∧ new.relay = r ∧ e.Of new := by
    intro r old hold e he
    obtain ⟨found, hfound, hr, hof⟩ := hs.entries r old hold e he
    by_cases hc : e.call = record.forwardingId
    · rw [hc, hcall] at hfound
      have heq := Option.some.inj hfound
      rw [← heq] at hr hof
      rw [hc]
      refine ⟨_, List.getElem?_set_self hlt, hr, ?_⟩
      unfold Entry.Of at hof ⊢
      by_cases hby : e.byHome = true
      · rw [if_pos hby, hnone] at hof
        cases hof
      · rw [if_neg hby] at hof ⊢
        exact hof
    · exact ⟨found, hcell _ found hfound hc, hr, hof⟩
  show Sound { s with
    relays := s.relays.set record.relay { relay with
      queue := relay.queue ++ [⟨record.forwardingId, true, message⟩] }
    homes := s.homes.set h { home with completing := none }
    calls := s.calls.modify record.forwardingId fun call =>
      { call with forwarded := some message } }
  rw [Cells.modify_eq_set _ hcall]
  refine ⟨?_, ?_, ?_, ?_, ?_, ?_⟩
  · intro id record' hrecord'
    obtain ⟨old, hfound, hfor', hfree, hphase⟩ := hs.records id record' hrecord'
    refine ⟨old, hcell _ old hfound ?_, hfor', hfree, hphase⟩
    intro heq
    rw [heq, hcall] at hfound
    rw [← Option.some.inj hfound, htaken] at hfree
    cases hfree
  · intro i new completion hnew hsome
    rcases Cells.getElem?_set_cases hhome hnew with ⟨rfl, rfl⟩ | ⟨hi, hnew⟩
    · cases hsome
    · obtain ⟨old, hfound, hfor', htaken', hrest⟩ := hs.completing i new completion hnew hsome
      refine ⟨old, hcell _ old hfound ?_, hfor', htaken', hrest⟩
      intro heq
      rw [heq, hcall] at hfound
      rw [← Option.some.inj hfound, htaken] at htaken'
      exact hi (congrArg Taken.home (Option.some.inj htaken')).symm
  · intro c new t hnew ht
    have hkept : Keeps s.homes (s.homes.set h { home with completing := none }) :=
      Keeps.set hhome rfl fun _ h => h
    rcases Cells.getElem?_set_cases hcall hnew with ⟨rfl, rfl⟩ | ⟨-, hold⟩
    · have hsame := hs.taken_of_keeps hkept hcall ht
      exact hsame
    · exact hs.taken_of_keeps hkept hold ht
  · intro c new a hnew ha
    rcases Cells.getElem?_set_cases hcall hnew with ⟨rfl, rfl⟩ | ⟨-, hold⟩
    · refine ⟨_, seeds, htaken, ?_⟩
      rw [← Option.some.inj ha, hseeds, hfor.bootstrap]
    · exact hs.forwarded c new a hold ha
  · intro r relay' hrelay' e he
    rcases Cells.getElem?_set_cases hrelay hrelay' with ⟨rfl, rfl⟩ | ⟨-, hrelay'⟩
    · have hmem : e ∈ relay.answers ∨ e = ⟨record.forwardingId, true, message⟩ := by
        simpa [RelaySession.answers, or_assoc] using he
      rcases hmem with hmem | rfl
      · exact hentries _ relay hrelay e hmem
      · exact ⟨_, List.getElem?_set_self hlt, hfor.relay.symm, rfl⟩
    · exact hentries r relay' hrelay' e he
  · intro r relay' hrelay'
    rcases Cells.getElem?_set_cases hrelay hrelay' with ⟨rfl, rfl⟩ | ⟨-, hrelay'⟩
    · show ((relay.written ++ (relay.queue ++ [_])).map Entry.key).Nodup
      rw [← List.append_assoc, List.map_append]
      exact List.nodup_append.mpr ⟨hs.distinct _ relay hrelay, List.nodup_singleton _, by
        intro a ha b hb
        rw [List.map_singleton, List.mem_singleton] at hb
        rintro rfl
        exact hnew (hb ▸ ha)⟩
    · exact hs.distinct r relay' hrelay'

theorem Sound.start : Sound (machine config).start := by
  refine ⟨?_, ?_, ?_, ?_, ?_, ?_⟩
  · intro id record h
    cases h
  · intro h home completion hhome
    cases hhome
  · intro c call t hcall
    cases hcall
  · intro c call a hcall
    cases hcall
  · intro r relay hrelay
    cases hrelay
  · intro r relay hrelay
    cases hrelay

theorem Call.Moves.early {phase : Phase} (hm : call.Moves s c phase)
    (h : call.phase.early = false) : phase.early = false := by
  cases hm with
  | authorized hphase | located hphase _ =>
    rw [hphase] at h
    cases h
  | refused _ | sending _ | failing _ | retired _ _ => rfl

theorem Call.Moves.not_replied {phase : Phase} (hm : call.Moves s c phase) (error : String) :
    call.phase ≠ .replied error := by
  intro heq
  cases hm with
  | authorized h | located h _ | sending h | retired h _ =>
    rw [heq] at h
    cases h
  | refused h =>
    rw [heq] at h
    cases h
  | failing h =>
    rw [heq] at h
    rcases h with h | h <;> cases h

/-- A call that gives up keeps no record. -/
theorem Sound.moves {phase : Phase} (hs : Sound s) (hcall : s.calls[c]? = some call)
    (hm : call.Moves s c phase) : Sound (s.setCall c { call with phase }) := by
  have hsame : call.Same { call with phase } :=
    ⟨rfl, rfl, rfl, rfl, rfl, hm.early, fun error h => absurd h (hm.not_replied error)⟩
  apply hs.frame
  · exact Follows.set hcall hsame
  · exact Quiet.refl _
  · exact Steady.refl _
  intro id record hrecord
  refine ⟨hrecord, ?_⟩
  intro call' hcall'
  obtain ⟨old, hold, hfor, -, hphase⟩ := hs.records id record hrecord
  rcases Cells.getElem?_set_cases hcall hcall' with ⟨heq, rfl⟩ | ⟨-, hcall'⟩
  · rw [heq, hcall] at hold
    obtain rfl := Option.some.inj hold
    cases hm with
    | authorized h | located h _ =>
      rw [h] at hphase
      cases hphase
    | refused h =>
      have hlate := Phase.early_of_recorded hphase
      rw [h] at hlate
      cases hlate
    | sending _ | failing _ => rfl
    | retired _ hown =>
      rw [hfor.requestId] at hrecord
      exact absurd heq (hown record hrecord)
  · rw [hold] at hcall'
    rw [← Option.some.inj hcall']
    exact hphase

/-- The record of a call goes when its submission could not be sent. -/
theorem Sound.retire {error error' : String} (hs : Sound s) (hcall : s.calls[c]? = some call)
    (hphase : call.phase = .failing error) :
    Sound { s.setCall c { call with phase := .refused error' } with
      pending := s.pending.erase call.submission.requestId } := by
  have hsame : call.Same { call with phase := .refused error' } := by
    refine ⟨rfl, rfl, rfl, rfl, rfl, fun _ => rfl, ?_⟩
    intro e h
    rw [hphase] at h
    cases h
  apply hs.frame
  · exact Follows.set hcall hsame
  · exact Quiet.refl _
  · exact Steady.refl _
  intro id record hrecord
  obtain ⟨hne, hold⟩ := Table.lookup_erase_cases hrecord
  refine ⟨hold, ?_⟩
  intro call' hcall'
  obtain ⟨found, hfound, hfor, -, hrecorded⟩ := hs.records id record hold
  rcases Cells.getElem?_set_cases hcall hcall' with ⟨heq, rfl⟩ | ⟨-, hcall'⟩
  · rw [heq, hcall] at hfound
    rw [← Option.some.inj hfound] at hfor
    exact absurd hfor.requestId hne
  · rw [hfound] at hcall'
    rw [← Option.some.inj hcall']
    exact hrecorded

theorem Sound.deliver (hs : Sound s) (hcall : s.calls[c]? = some call)
    (hphase : call.phase = .sending h) (hhome : s.homes[h]? = some home)
    (hrelay : s.relays[call.relay]? = some relay) :
    Sound (((s.setHome h { home with queue := home.queue ++ [c] }).setRelay call.relay
      { relay with call := none }).setCall c { call with phase := .delivered h }) := by
  apply hs.advance (.delivered h) hcall
  · exact fun _ => rfl
  · exact fun _ => rfl
  · intro error heq
    rw [hphase] at heq
    cases heq
  · rfl
  · rfl
  · exact Quiet.set hrelay (List.Sublist.refl _)
  · exact Steady.set hhome rfl (fun _ h => h) (.inr rfl)

theorem Sound.step {a : Action} (hs : Sound s) (h : s.step config a = some s') : Sound s' := by
  cases Effect.of_step h with
  | @submits r relay submission hrelay =>
    apply hs.frame
    · exact Follows.append rfl rfl
    · exact Quiet.set hrelay (List.Sublist.refl _)
    · exact Steady.refl _
    intro id record hrecord
    refine ⟨hrecord, ?_⟩
    intro call' hcall'
    obtain ⟨call, hcall, -, -, hphase⟩ := hs.records id record hrecord
    have hlt : record.forwardingId < s.calls.length := (List.getElem?_eq_some_iff.mp hcall).1
    dsimp only at hcall'
    rw [List.getElem?_append_left hlt, hcall] at hcall'
    rw [← Option.some.inj hcall']
    exact hphase
  | moves hcall hmoves => exact hs.moves hcall hmoves
  | retires hcall hphase _ _ => exact hs.retire hcall hphase
  | inserts hcall hphase _ _ => exact hs.insert hcall hphase
  | delivers hcall hphase hhome hrelay => exact hs.deliver hcall hphase hhome hrelay
  | replies hcall hphase hrelay => exact hs.reply hcall hphase hrelay
  | relays hquiet _ => exact hs.forget rfl (fun _ _ h => h) hquiet (Steady.refl _)
  | homes hhome hlater =>
    exact hs.forget rfl (fun _ _ h => h) (Quiet.refl _)
      (Steady.set hhome hlater.homeId hlater.said hlater.completing)
  | connects => exact hs.forget rfl (fun _ _ h => h) (Quiet.refl _) (Steady.append rfl)
  | tears hhome _ _ _ hlater =>
    exact hs.forget rfl (fun _ _ h => h) (Quiet.refl _)
      (Steady.set hhome hlater.homeId hlater.said hlater.completing)
  | takes hhome _ hrecord hid hinstalled hsaid hcompleting hlater =>
    exact hs.take hhome hrecord hid hinstalled hlater.homeId hsaid hcompleting
  | composes hhome hcompleting => exact hs.compose hhome hcompleting
  | forwards hhome hcompleting hrelay => exact hs.forward hhome hcompleting hrelay
  | clears => exact hs.forget rfl (fun _ _ h => h) (Quiet.refl _) (Steady.refl _)
  | publishes => exact hs.forget rfl (fun _ _ h => h) (Quiet.refl _) (Steady.refl _)
  | cleans =>
    apply hs.forget
    · rfl
    · intro id record hrecord
      rw [Table.lookup_retain] at hrecord
      exact (Option.filter_eq_some_iff.mp hrecord).1
    · exact Quiet.refl _
    · exact Steady.refl _
  | ticks _ => exact hs.forget rfl (fun _ _ h => h) (Quiet.refl _) (Steady.refl _)

theorem Sound.of_reachable (h : (machine config).Reachable s) : Sound s :=
  h.invariant Sound.start fun _ _ _ hs hstep => hs.step hstep

theorem Keeps.stays (hkept : Keeps homes s.homes) : Stays homes s.homes := by
  intro h home hhome
  obtain ⟨home', hhome', hid, -⟩ := hkept h home hhome
  exact ⟨home', hhome', hid⟩

theorem Stays.refl (homes : List HomeSession) : Stays homes homes :=
  fun _ home hhome => ⟨home, hhome, rfl⟩

theorem Stays.set (hhome : homes[h]? = some home) (hid : home'.homeId = home.homeId) :
    Stays homes (homes.set h home') := by
  intro i old hold
  obtain ⟨new, hnew, ⟨-, rfl, rfl⟩ | ⟨-, rfl⟩⟩ := Cells.exists_getElem?_set home' hhome hold
  · exact ⟨_, hnew, hid⟩
  · exact ⟨_, hnew, rfl⟩

/-- A step that leaves the calls as they are. -/
theorem Placed.frame (hp : Placed s) (hcalls : s'.calls = s.calls) (hhomes : Stays s.homes s'.homes)
    (hsenders : ∀ homeId h, s'.senders.lookup homeId = some h →
      s.senders.lookup homeId = some h ∨ ∃ home, s'.homes[h]? = some home ∧ home.homeId = homeId)
    (hcarried : ∀ (h : ℕ) (home' : HomeSession) c, s'.homes[h]? = some home' →
      c ∈ home'.received ++ home'.queue → ∃ home, s.homes[h]? = some home ∧
        c ∈ home.received ++ home.queue)
    (hbusy : ∀ (r : ℕ) (relay' : RelaySession) c, s'.relays[r]? = some relay' →
      relay'.call = some c → ∃ relay, s.relays[r]? = some relay ∧ relay.call = some c) :
    Placed s' where
  senders homeId h hfound := by
    rcases hsenders homeId h hfound with hold | hnew
    · obtain ⟨home, hhome, hid⟩ := hp.senders homeId h hold
      obtain ⟨home', hhome', hid'⟩ := hhomes h home hhome
      exact ⟨home', hhome', hid'.trans hid⟩
    · exact hnew
  target c call h hcall hphase := by
    rw [hcalls] at hcall
    obtain ⟨home, hhome, hid⟩ := hp.target c call h hcall hphase
    obtain ⟨home', hhome', hid'⟩ := hhomes h home hhome
    exact ⟨home', hhome', hid'.trans hid⟩
  carried h home' c hhome' hc := by
    obtain ⟨home, hhome, hold⟩ := hcarried h home' c hhome' hc
    rw [hcalls]
    exact hp.carried h home c hhome hold
  busy r relay' c hrelay' hcall := by
    obtain ⟨relay, hrelay, hold⟩ := hbusy r relay' c hrelay' hcall
    rw [hcalls]
    exact hp.busy r relay c hrelay hold

/-- A call goes on, to the session of its Home if to any. -/
theorem Placed.setCall (hp : Placed s) (hcall : s.calls[c]? = some call)
    (hrelay : call'.relay = call.relay) (hsubmission : call'.submission = call.submission)
    (htarget : ∀ h, call'.phase.target = some h →
      ∃ home, s.homes[h]? = some home ∧ home.homeId = call.submission.homeId)
    (hdelivered : ∀ h, call.phase = .delivered h → call'.phase = .delivered h)
    (hactive : call.phase.active = true → call'.phase.active = true) :
    Placed (s.setCall c call') where
  senders := hp.senders
  target i new h hnew hphase := by
    rcases Cells.getElem?_set_cases hcall hnew with ⟨rfl, rfl⟩ | ⟨-, hnew⟩
    · rw [hsubmission]
      exact htarget h hphase
    · exact hp.target i new h hnew hphase
  carried h home i hhome hi := by
    obtain ⟨old, hold, hphase⟩ := hp.carried h home i hhome hi
    obtain ⟨new, hnew, ⟨-, rfl, rfl⟩ | ⟨-, rfl⟩⟩ := Cells.exists_getElem?_set call' hcall hold
    · exact ⟨_, hnew, hdelivered h hphase⟩
    · exact ⟨_, hnew, hphase⟩
  busy r relay i hr hi := by
    obtain ⟨old, hold, hof, hphase⟩ := hp.busy r relay i hr hi
    obtain ⟨new, hnew, ⟨-, rfl, rfl⟩ | ⟨-, rfl⟩⟩ := Cells.exists_getElem?_set call' hcall hold
    · exact ⟨_, hnew, hrelay.trans hof, hactive hphase⟩
    · exact ⟨_, hnew, hof, hphase⟩

/-- The Relay session of a call that ends is free. -/
theorem Placed.endCall (hp : Placed s) (hcall : s.calls[c]? = some call)
    (hrelay : s.relays[call.relay]? = some relay) (hrelay' : relay'.call = none)
    (hactive : call.phase.active = true)
    (hends : call'.relay = call.relay ∧ call'.submission = call.submission)
    (htarget : ∀ h, call'.phase.target = some h →
      ∃ home, s.homes[h]? = some home ∧ home.homeId = call.submission.homeId) :
    Placed ((s.setRelay call.relay relay').setCall c call') where
  senders := hp.senders
  target i new h hnew hphase := by
    rcases Cells.getElem?_set_cases hcall hnew with ⟨rfl, rfl⟩ | ⟨-, hnew⟩
    · rw [hends.2]
      exact htarget h hphase
    · exact hp.target i new h hnew hphase
  carried h home i hhome hi := by
    obtain ⟨old, hold, hphase⟩ := hp.carried h home i hhome hi
    obtain ⟨new, hnew, ⟨-, rfl, rfl⟩ | ⟨-, rfl⟩⟩ := Cells.exists_getElem?_set call' hcall hold
    · rw [hphase] at hactive
      cases hactive
    · exact ⟨_, hnew, hphase⟩
  busy r new i hnew hi := by
    rcases Cells.getElem?_set_cases hrelay hnew with ⟨rfl, rfl⟩ | ⟨hr, hnew⟩
    · rw [hrelay'] at hi
      cases hi
    · obtain ⟨old, hold, hof, hphase⟩ := hp.busy r new i hnew hi
      obtain ⟨found, hfound, ⟨-, rfl, rfl⟩ | ⟨-, rfl⟩⟩ := Cells.exists_getElem?_set call' hcall hold
      · exact absurd hof.symm hr
      · exact ⟨_, hfound, hof, hphase⟩

theorem Placed.start : Placed (machine config).start := by
  refine ⟨?_, ?_, ?_, ?_⟩
  · intro homeId h hfound
    cases hfound
  · intro c call h hcall
    cases hcall
  · intro h home c hhome
    cases hhome
  · intro r relay c hrelay
    cases hrelay

theorem Placed.submit {submission : Submission} (hp : Placed s)
    (hrelay : s.relays[r]? = some relay) :
    Placed { s.setRelay r { relay with call := some s.calls.length } with
      calls := s.calls ++ [{ relay := r, submission, expires := s.now + config.lifetime }] } where
  senders := hp.senders
  target c call h hcall hphase := by
    rcases Cells.getElem?_append_cases hcall with ⟨-, rfl⟩ | ⟨-, hcall⟩
    · cases hphase
    · exact hp.target c call h hcall hphase
  carried h home c hhome hc := by
    obtain ⟨call, hcall, hphase⟩ := hp.carried h home c hhome hc
    have hlt : c < s.calls.length := (List.getElem?_eq_some_iff.mp hcall).1
    refine ⟨call, ?_, hphase⟩
    rw [List.getElem?_append_left hlt]
    exact hcall
  busy i new c hnew hc := by
    rcases Cells.getElem?_set_cases hrelay hnew with ⟨rfl, rfl⟩ | ⟨-, hnew⟩
    · obtain rfl := Option.some.inj hc
      exact ⟨_, List.getElem?_concat_length, rfl, rfl⟩
    · obtain ⟨call, hcall, hof, hphase⟩ := hp.busy i new c hnew hc
      have hlt : c < s.calls.length := (List.getElem?_eq_some_iff.mp hcall).1
      refine ⟨call, ?_, hof, hphase⟩
      rw [List.getElem?_append_left hlt]
      exact hcall

/-- What answers leave in a call does not move it. -/
theorem Placed.modify (hp : Placed s) (c : ℕ) (f : Call → Call)
    (hf : ∀ call, (f call).relay = call.relay ∧ (f call).submission = call.submission ∧
      (f call).phase = call.phase) : Placed { s with calls := s.calls.modify c f } := by
  cases hcall : s.calls[c]? with
  | none =>
    rw [List.modify_eq_self (List.getElem?_eq_none_iff.mp hcall)]
    exact hp
  | some call =>
    rw [Cells.modify_eq_set _ hcall]
    obtain ⟨hrelay, hsubmission, hphase⟩ := hf call
    apply hp.setCall hcall hrelay hsubmission
    · intro h htarget
      rw [hphase] at htarget
      exact hp.target c call h hcall htarget
    · intro h hdelivered
      rw [hphase, hdelivered]
    · intro hactive
      rw [hphase, hactive]

theorem Placed.setHome (hp : Placed s) (hhome : s.homes[h]? = some home)
    (hid : home'.homeId = home.homeId)
    (hcarried : ∀ c ∈ home'.received ++ home'.queue, c ∈ home.received ++ home.queue) :
    Placed (s.setHome h home') := by
  apply hp.frame
  · rfl
  · exact Stays.set hhome hid
  · exact fun _ _ hfound => .inl hfound
  · intro i new c hnew hc
    rcases Cells.getElem?_set_cases hhome hnew with ⟨rfl, rfl⟩ | ⟨-, hnew⟩
    · exact ⟨home, hhome, hcarried c hc⟩
    · exact ⟨new, hnew, hc⟩
  · exact fun _ relay _ hrelay hc => ⟨relay, hrelay, hc⟩

theorem Placed.deliver (hp : Placed s) (hcall : s.calls[c]? = some call)
    (hphase : call.phase = .sending h) (hhome : s.homes[h]? = some home)
    (hrelay : s.relays[call.relay]? = some relay) :
    Placed (((s.setHome h { home with queue := home.queue ++ [c] }).setRelay call.relay
      { relay with call := none }).setCall c { call with phase := .delivered h }) := by
  have hlt : c < s.calls.length := (List.getElem?_eq_some_iff.mp hcall).1
  have htarget : ∀ i, (Phase.delivered h).target = some i →
      ∃ home, s.homes[i]? = some home ∧ home.homeId = call.submission.homeId := by
    intro i hi
    apply hp.target c call i hcall
    rw [hphase]
    exact hi
  have hactive : call.phase.active = true := by
    rw [hphase]
    rfl
  have hend : Placed ((s.setRelay call.relay { relay with call := none }).setCall c
      { call with phase := .delivered h }) :=
    hp.endCall hcall hrelay rfl hactive ⟨rfl, rfl⟩ htarget
  have hstays : Stays s.homes (s.homes.set h { home with queue := home.queue ++ [c] }) :=
    Stays.set hhome rfl
  refine ⟨?_, ?_, ?_, hend.busy⟩
  · intro homeId i hfound
    obtain ⟨old, hold, hid⟩ := hp.senders homeId i hfound
    obtain ⟨new, hnew, hid'⟩ := hstays i old hold
    exact ⟨new, hnew, hid'.trans hid⟩
  · intro i new j hnew hj
    obtain ⟨old, hold, hid⟩ := hend.target i new j hnew hj
    obtain ⟨found, hfound, hid'⟩ := hstays j old hold
    exact ⟨found, hfound, hid'.trans hid⟩
  · intro i new j hnew hj
    rcases Cells.getElem?_set_cases hhome hnew with ⟨rfl, rfl⟩ | ⟨-, hnew⟩
    · rw [← List.append_assoc] at hj
      rcases List.mem_append.mp hj with hj | hj
      · exact hend.carried _ home j hhome hj
      · rw [List.mem_singleton.mp hj]
        exact ⟨_, List.getElem?_set_self hlt, rfl⟩
    · exact hend.carried i new j hnew hj

theorem Placed.moves {phase : Phase} (hp : Placed s) (hcall : s.calls[c]? = some call)
    (hm : call.Moves s c phase) : Placed (s.setCall c { call with phase }) := by
  apply hp.setCall hcall
  · rfl
  · rfl
  · intro h htarget
    cases hm with
    | located _ hsender =>
      obtain rfl := Option.some.inj htarget
      exact hp.senders _ _ hsender
    | sending hold =>
      apply hp.target c call h hcall
      rw [hold]
      exact htarget
    | authorized _ | refused _ | failing _ | retired _ _ => cases htarget
  · intro h hphase
    cases hm with
    | authorized hold | located hold _ | sending hold | retired hold _ =>
      rw [hphase] at hold
      cases hold
    | refused hold =>
      rw [hphase] at hold
      cases hold
    | failing hold =>
      rw [hphase] at hold
      rcases hold with hold | hold <;> cases hold
  · intro _
    cases hm <;> rfl

theorem Placed.changePending (hp : Placed s) (pending : Table Uuid PendingEnrollment) :
    Placed { s with pending } := ⟨hp.senders, hp.target, hp.carried, hp.busy⟩

/-- A call changes its record as it moves on, and stays with the session of its Home. -/
theorem Placed.changeRecord {phase : Phase} {pending : Table Uuid PendingEnrollment} (hp : Placed s)
    (hcall : s.calls[c]? = some call) (hundelivered : ∀ h, call.phase ≠ .delivered h)
    (htarget : phase.target = none ∨ phase.target = call.phase.target)
    (hactive : phase.active = true) :
    Placed { s.setCall c { call with phase } with pending } := by
  have hmoved : Placed (s.setCall c { call with phase }) := by
    apply hp.setCall hcall
    · rfl
    · rfl
    · intro h hphase
      rcases htarget with hnone | hsame
      · rw [hnone] at hphase
        cases hphase
      · exact hp.target c call h hcall (hsame ▸ hphase)
    · exact fun h hphase => absurd hphase (hundelivered h)
    · exact fun _ => hactive
  exact hmoved.changePending pending

theorem Placed.setRelay (hp : Placed s) (hrelay : s.relays[r]? = some relay)
    (hcall : relay'.call = relay.call) : Placed (s.setRelay r relay') := by
  apply hp.frame
  · rfl
  · exact Stays.refl _
  · exact fun _ _ hfound => .inl hfound
  · exact fun _ home _ hhome hc => ⟨home, hhome, hc⟩
  · intro i new c hnew hc
    rcases Cells.getElem?_set_cases hrelay hnew with ⟨rfl, rfl⟩ | ⟨-, hnew⟩
    · exact ⟨relay, hrelay, hcall ▸ hc⟩
    · exact ⟨new, hnew, hc⟩

theorem Placed.connectHome {homeId : String} (hp : Placed s) : Placed (s.connectHome homeId) := by
  apply hp.frame
  · rfl
  · intro h home hhome
    have hlt : h < s.homes.length := (List.getElem?_eq_some_iff.mp hhome).1
    refine ⟨home, ?_, rfl⟩
    show (s.homes ++ [_])[h]? = some home
    rw [List.getElem?_append_left hlt]
    exact hhome
  · intro id h hfound
    rcases Table.lookup_insert_cases hfound with ⟨rfl, rfl⟩ | ⟨-, hold⟩
    · exact .inr ⟨_, List.getElem?_concat_length, rfl⟩
    · exact .inl hold
  · intro h home c hhome hc
    rcases Cells.getElem?_append_cases hhome with ⟨-, rfl⟩ | ⟨-, hhome⟩
    · cases hc
    · exact ⟨home, hhome, hc⟩
  · exact fun _ relay _ hrelay hc => ⟨relay, hrelay, hc⟩

theorem Placed.take {answer : HomeAnswer} {taken : Taken} (hp : Placed s)
    (hhome : s.homes[h]? = some home) (hid : home'.homeId = home.homeId)
    (hcarried : ∀ c ∈ home'.received ++ home'.queue, c ∈ home.received ++ home.queue) :
    Placed { s with
      pending := s.pending.erase answer.requestId
      calls := s.calls.modify c fun call => { call with taken := some taken }
      homes := s.homes.set h home' } := by
  have hsaid := hp.setHome hhome hid hcarried
  have htaken := hsaid.modify c (fun call => { call with taken := some taken }) fun _ =>
    ⟨rfl, rfl, rfl⟩
  exact htaken.changePending (s.pending.erase answer.requestId)

theorem Placed.forward {entry : Entry} {message : Answer} (hp : Placed s)
    (hhome : s.homes[h]? = some home) (hrelay : s.relays[r]? = some relay) :
    Placed { (s.setRelay r { relay with queue := relay.queue ++ [entry] }).setHome h
        { home with completing := none } with
      calls := s.calls.modify c fun call => { call with forwarded := some message } } := by
  have hqueued : Placed (s.setRelay r { relay with queue := relay.queue ++ [entry] }) :=
    hp.setRelay hrelay rfl
  have hdone : Placed ((s.setRelay r { relay with queue := relay.queue ++ [entry] }).setHome h
      { home with completing := none }) := hqueued.setHome hhome rfl fun _ hc => hc
  exact hdone.modify c (fun call => { call with forwarded := some message }) fun _ =>
    ⟨rfl, rfl, rfl⟩

theorem Placed.step {a : Action} (hp : Placed s) (h : s.step config a = some s') : Placed s' := by
  cases Effect.of_step h with
  | submits hrelay => exact hp.submit hrelay
  | moves hcall hmoves => exact hp.moves hcall hmoves
  | retires hcall hphase _ _ =>
    apply hp.changeRecord hcall _ (.inl rfl) rfl
    intro h
    rw [hphase]
    exact fun heq => by cases heq
  | inserts hcall hphase _ _ =>
    apply hp.changeRecord hcall _ (.inr _) rfl
    · intro h
      rw [hphase]
      exact fun heq => by cases heq
    · rw [hphase]
      rfl
  | delivers hcall hphase hhome hrelay => exact hp.deliver hcall hphase hhome hrelay
  | replies hcall hphase hrelay =>
    apply hp.endCall hcall hrelay
    · rfl
    · rw [hphase]
      rfl
    · exact ⟨rfl, rfl⟩
    · intro h htarget
      cases htarget
  | relays _ hcall =>
    apply hp.frame
    · rfl
    · exact Stays.refl _
    · exact fun _ _ hfound => .inl hfound
    · exact fun _ home _ hhome hc => ⟨home, hhome, hc⟩
    · exact fun r relay c hrelay hc => hcall r relay hrelay c hc
  | homes hhome hlater => exact hp.setHome hhome hlater.homeId hlater.carried
  | connects => exact hp.connectHome
  | tears hhome _ _ _ hlater => exact hp.setHome hhome hlater.homeId hlater.carried
  | takes hhome _ _ _ _ _ _ hlater =>
    exact hp.take hhome hlater.homeId hlater.carried
  | composes hhome _ => exact hp.setHome hhome rfl fun _ hc => hc
  | forwards hhome _ hrelay =>
    exact hp.forward hhome hrelay
  | clears =>
    apply hp.frame
    · rfl
    · exact Stays.refl _
    · exact fun _ _ hfound => .inl (Table.lookup_erase_cases hfound).2
    · exact fun _ home _ hhome hc => ⟨home, hhome, hc⟩
    · exact fun _ relay _ hrelay hc => ⟨relay, hrelay, hc⟩
  | publishes | cleans | ticks _ => exact ⟨hp.senders, hp.target, hp.carried, hp.busy⟩

theorem Placed.of_reachable (h : (machine config).Reachable s) : Placed s :=
  h.invariant Placed.start fun _ _ _ hp hstep => hp.step hstep

/-- Where an answer for a call comes from: a session of the Home that its submission names has said
it, for its request and stage, or the Server has refused it and no Home has got it. -/
inductive Entry.From (s : Sys) (call : Call) (e : Entry) : Prop where
  | home {h : ℕ} {home : HomeSession} {answer : HomeAnswer} {seedRelays : List String}
      (hby : e.byHome = true) (hhome : s.homes[h]? = some home) (hsaid : answer ∈ home.said)
      (hfits : answer.Fits home.homeId call.submission)
      (hanswer : e.answer = answer.forward call.submission.isBootstrap seedRelays)
  | server {error : String} (hby : e.byHome = false)
      (hanswer : e.answer = call.submission.refusal error)
      (hnot : ∀ (h : ℕ) home, s.homes[h]? = some home → e.call ∉ home.received ++ home.queue)

/-- In every run, what a Relay session gets answers its own submissions: of each at most one answer
of a Home, and at most one of the Server itself. -/
theorem answers_from (h : (machine config).Reachable s) (hrelay : s.relays[r]? = some relay) :
    (relay.answers.map Entry.key).Nodup ∧ ∀ e ∈ relay.answers, ∃ call,
      s.calls[e.call]? = some call ∧ call.relay = r ∧ e.From s call := by
  have hs := Sound.of_reachable h
  have hp := Placed.of_reachable h
  refine ⟨hs.distinct r relay hrelay, ?_⟩
  intro e he
  obtain ⟨call, hcall, hr, hof⟩ := hs.entries r relay hrelay e he
  refine ⟨call, hcall, hr, ?_⟩
  unfold Entry.Of at hof
  cases hby : e.byHome with
  | true =>
    rw [if_pos hby] at hof
    obtain ⟨t, seeds, ht, hanswer⟩ := hs.forwarded _ call _ hcall hof
    obtain ⟨-, home, hhome, hsaid, hfits⟩ := hs.taken _ call t hcall ht
    exact .home hby hhome hsaid hfits hanswer
  | false =>
    rw [if_neg (by simp [hby])] at hof
    obtain ⟨error, hphase, hanswer⟩ := hof
    refine .server hby hanswer ?_
    intro i home hhome hmem
    obtain ⟨found, hfound, hdelivered⟩ := hp.carried i home e.call hhome hmem
    rw [hcall] at hfound
    rw [← Option.some.inj hfound, hphase] at hdelivered
    cases hdelivered

def sampleConfig : Config := ⟨30, 1⟩

/-- The first submission of a Relay is delivered and answered. A second one, with the same request
id and a stage of its own, comes when the queue of the Home is gone. -/
def sampleRun : List Action :=
  [.connectHome "home", .connectRelay "relay", .submit 0 (.remote 7 "travel" 3 5 "home" [1]),
    .authorize 0 (.ok ()), .locate 0, .insert 0, .beginSend 0, .deliver 0, .receive 0,
    .answer 0 (.result 7 true (some [2]) none) (some 0), .compose 0, .forward 0, .write 0,
    .submit 0 (.installed 7 "travel" 3 5 "home"), .authorize 1 (.ok ()), .locate 1, .insert 1,
    .beginSend 1, .stopWriter 0, .sendFails 1, .retire 1, .reply 1]

def sampleEnd : Sys := ((machine sampleConfig).exec sampleRun).getD {}

theorem sampleEnd_reachable : (machine sampleConfig).Reachable sampleEnd := by
  have hrun : (machine sampleConfig).exec sampleRun = some sampleEnd := rfl
  exact Machine.reachable_of_exec hrun

theorem answers_from_sample : ∃ relay, sampleEnd.relays[0]? = some relay ∧
    relay.written = [⟨0, true, .remoteResult 7 true (some [2]) none⟩, ⟨1, false,
      .installedAck 7 false (some ("Home control session delivery failed during enrollment " ++
        "acknowledgement: control session queue closed"))⟩] ∧
    ∀ e ∈ relay.answers, ∃ call, sampleEnd.calls[e.call]? = some call ∧ call.relay = 0 ∧
      e.From sampleEnd call :=
  ⟨_, rfl, rfl, (answers_from sampleEnd_reachable rfl).2⟩

end FlowSplice.Server.Enrollments
