import FlowSplice.Lib.Cells
import FlowSplice.Lib.Machine
import FlowSplice.Relay.Requests

/-! The calls of `PendingRequests::request` and `complete` on their tasks. Between two accesses to
the map anything may happen: an answer is on its way after its entry is gone, and a call that has
ended still holds its registration for a while. -/
namespace FlowSplice.Relay
namespace Waiters

variable {κ τ : Type*}

/-- A value, and which call of `complete` brought it. -/
structure Response (τ : Type*) where
  position : ℕ
  value : τ
deriving DecidableEq, Repr

/-- Where a call of `request` is: it awaits the queue, or the receiver, or its body has ended and
the registration is dropped next, or it is gone. No result means that its future was dropped. -/
inductive Phase (τ : Type*) where
  | sending
  | waiting
  | ending (result : Option (Except RequestError τ))
  | ended (result : Option (Except RequestError τ))
deriving Repr

/-- The body of the call has not ended, so its receiver is there. -/
def Phase.listening : Phase τ → Bool
  | .sending | .waiting => true
  | .ending _ | .ended _ => false

/-- The registration of the call is not dropped. -/
def Phase.live : Phase τ → Bool
  | .ended _ => false
  | _ => true

def Phase.result : Phase τ → Option (Option (Except RequestError τ))
  | .ending result | .ended result => some result
  | _ => none

/-- A call of `request`; its place in the list of calls is its token. `channel` is what its oneshot
channel holds, `since` how often `complete` had been called when it registered, and `taken` the call
of `complete` that took its entry. -/
structure Call (κ τ : Type*) where
  key : κ
  phase : Phase τ
  channel : Option (Response τ) := none
  since : ℕ
  taken : Option ℕ := none
deriving Repr

/-- A sender is used; without a receiver the answer is lost. -/
def Call.accept (response : Response τ) (call : Call κ τ) : Call κ τ :=
  if call.phase.listening then { call with channel := some response } else call

/-- `completing` are the senders that `complete` took and has not used yet, and `log` are all its
calls. -/
structure Sys (κ τ : Type*) [DecidableEq κ] where
  requests : PendingRequests κ := {}
  calls : List (Call κ τ) := []
  completing : List (ℕ × Response τ) := []
  log : List (κ × τ) := []

inductive Action (κ τ : Type*) where
  /-- A call begins; its deadline may have passed. -/
  | request (key : κ) (expired : Bool)
  /-- The queue takes the message of the call. -/
  | enqueued (token : ℕ)
  | queueClosed (token : ℕ)
  /-- `complete` up to the end of its lock. -/
  | complete (key : κ) (value : τ)
  /-- The rest of `complete`: one of the senders that were taken is used. -/
  | send (index : ℕ)
  | receive (token : ℕ)
  /-- The receiver finds that its sender is gone. -/
  | responseClosed (token : ℕ)
  | timeout (token : ℕ)
  /-- The future of the call is dropped. -/
  | cancel (token : ℕ)
  /-- The registration of the call is dropped. -/
  | drop (token : ℕ)

namespace Sys
variable [DecidableEq κ] (s : Sys κ τ)

/-- The call moves on. -/
def setCall (token : ℕ) (call : Call κ τ) : Sys κ τ := { s with calls := s.calls.set token call }

/-- The sender of the call is gone without an answer. -/
def senderGone (token : ℕ) (call : Call κ τ) : Bool :=
  s.requests.entries.lookup call.key ≠ some token ∧ call.channel.isNone ∧
    s.completing.all fun sender => sender.1 ≠ token

def step (s : Sys κ τ) : Action κ τ → Option (Sys κ τ)
  | .request key expired =>
    if expired then
      some { s with
        calls := s.calls ++ [⟨key, .ended (some (.error .timedOut)), none, s.log.length, none⟩] }
    else
      match s.requests.register key s.calls.length with
      | .error error =>
        some { s with
          calls := s.calls ++ [⟨key, .ended (some (.error error)), none, s.log.length, none⟩] }
      | .ok requests =>
        some { s with
          requests
          calls := s.calls ++ [⟨key, .sending, none, s.log.length, none⟩] }
  | .enqueued token =>
    match s.calls[token]? with
    | some call =>
      match call.phase with
      | .sending => some (s.setCall token { call with phase := .waiting })
      | _ => none
    | none => none
  | .queueClosed token =>
    match s.calls[token]? with
    | some call =>
      match call.phase with
      | .sending => some (s.setCall token { call with phase := .ending (some (.error .queueClosed)) })
      | _ => none
    | none => none
  | .complete key value =>
    match (s.requests.complete key).1 with
    | none => some { s with log := s.log ++ [(key, value)] }
    | some token =>
      some { s with
        requests := (s.requests.complete key).2
        calls := s.calls.modify token fun call => { call with taken := some s.log.length }
        completing := s.completing ++ [(token, ⟨s.log.length, value⟩)]
        log := s.log ++ [(key, value)] }
  | .send index =>
    match s.completing[index]? with
    | none => none
    | some (token, response) =>
      some { s with
        calls := s.calls.modify token (Call.accept response)
        completing := s.completing.eraseIdx index }
  | .receive token =>
    match s.calls[token]? with
    | some call =>
      match call.phase, call.channel with
      | .waiting, some response =>
        some (s.setCall token { call with
          phase := .ending (some (.ok response.value))
          channel := none })
      | _, _ => none
    | none => none
  | .responseClosed token =>
    match s.calls[token]? with
    | some call =>
      match call.phase with
      | .waiting =>
        if s.senderGone token call then
          some (s.setCall token { call with phase := .ending (some (.error .responseClosed)) })
        else none
      | _ => none
    | none => none
  | .timeout token =>
    match s.calls[token]? with
    | some call =>
      if call.phase.listening then
        some (s.setCall token { call with phase := .ending (some (.error .timedOut)) })
      else none
    | none => none
  | .cancel token =>
    match s.calls[token]? with
    | some call =>
      if call.phase.listening then some (s.setCall token { call with phase := .ending none })
      else none
    | none => none
  | .drop token =>
    match s.calls[token]? with
    | some call =>
      match call.phase with
      | .ending result =>
        some { s.setCall token { call with phase := .ended result } with
          requests := s.requests.drop call.key token }
      | _ => none
    | none => none

end Sys

/-- Any calls on one map. -/
def machine (κ τ : Type*) [DecidableEq κ] : Machine (Sys κ τ) (Action κ τ) where
  start := {}
  step := Sys.step

variable {call call' : Call κ τ} {log : List (κ × τ)} {r : Response τ}

/-- The answer `r` was brought under the key of the call, after the call had registered, by the
call of `complete` that took its entry. -/
structure Brought (log : List (κ × τ)) (call : Call κ τ) (r : Response τ) : Prop where
  taken : call.taken = some r.position
  since_le : call.since ≤ r.position
  logged : log[r.position]? = some (call.key, r.value)

theorem Brought.append (h : Brought log call r) (entry : κ × τ) :
    Brought (log ++ [entry]) call r := by
  refine ⟨h.taken, h.since_le, ?_⟩
  have hlt : r.position < log.length := (List.getElem?_eq_some_iff.mp h.logged).1
  rw [List.getElem?_append_left hlt]
  exact h.logged

theorem Brought.congr (h : Brought log call r) (hkey : call'.key = call.key)
    (hsince : call'.since = call.since) (htaken : call'.taken = call.taken) :
    Brought log call' r := by
  refine ⟨htaken.trans h.taken, ?_, ?_⟩
  · rw [hsince]
    exact h.since_le
  · rw [hkey]
    exact h.logged

theorem Phase.live_of_listening {phase : Phase τ} (h : phase.listening = true) :
    phase.live = true := by
  cases phase with
  | sending | waiting => rfl
  | ending result | ended result => cases h

/-- A call that listens moves on: it keeps listening, or its body ends. -/
structure Advances (call call' : Call κ τ) : Prop where
  key_eq : call'.key = call.key
  since_eq : call'.since = call.since
  taken_eq : call'.taken = call.taken
  listening : call.phase.listening = true
  live : call'.phase.live = true
  channel : call'.channel = call.channel ∨ call'.channel = none ∧ call'.phase.listening = false
  result : ∀ value, call'.phase.result = some (some (.ok value)) →
    ∃ n, call.channel = some ⟨n, value⟩

/-- A body that ends without an answer. -/
theorem Advances.ending {result : Option (Except RequestError τ)}
    (h : call.phase.listening = true) (hresult : ∀ value, result ≠ some (.ok value)) :
    Advances call { call with phase := .ending result } where
  key_eq := rfl
  since_eq := rfl
  taken_eq := rfl
  listening := h
  live := rfl
  channel := .inl rfl
  result value hvalue := absurd (Option.some.inj hvalue) (hresult value)

variable [DecidableEq κ] {s s' : Sys κ τ} {a : Action κ τ} {token : ℕ}

/-- What the map, the senders and the calls say of each other. -/
structure Inv (s : Sys κ τ) : Prop where
  entry : ∀ key token, s.requests.entries.lookup key = some token ↔
    ∃ call : Call κ τ, s.calls[token]? = some call ∧ call.key = key ∧ call.phase.live = true ∧
      call.taken = none
  since_le : ∀ (token : ℕ) (call : Call κ τ), s.calls[token]? = some call →
    call.since ≤ s.log.length
  taken : ∀ (token : ℕ) (call : Call κ τ) (n : ℕ), s.calls[token]? = some call →
    call.taken = some n → ∃ value, Brought s.log call ⟨n, value⟩
  single : ∀ (token token' : ℕ) (call call' : Call κ τ) (n : ℕ), s.calls[token]? = some call →
    s.calls[token']? = some call' → call.taken = some n → call'.taken = some n → token = token'
  sender : ∀ token r, (token, r) ∈ s.completing →
    ∃ call, s.calls[token]? = some call ∧ Brought s.log call r
  channel : ∀ (token : ℕ) (call : Call κ τ) r, s.calls[token]? = some call →
    call.channel = some r → Brought s.log call r
  result : ∀ (token : ℕ) (call : Call κ τ) value, s.calls[token]? = some call →
    call.phase.result = some (some (.ok value)) → ∃ n, Brought s.log call ⟨n, value⟩
  waits : ∀ (token : ℕ) (call : Call κ τ) (n : ℕ), s.calls[token]? = some call →
    call.phase.listening = true → call.taken = some n → call.channel = none →
      ∃ r, (token, r) ∈ s.completing

/-- What a step may do to one call without touching what was brought to it. -/
theorem Inv.replace {requests : PendingRequests κ} {completing : List (ℕ × Response τ)}
    (h : Inv s) (hcall : s.calls[token]? = some call) (hkey : call'.key = call.key)
    (hsince : call'.since = call.since) (htaken : call'.taken = call.taken)
    (hlive : call'.phase.live = true → call.phase.live = true)
    (hentry : ∀ key t, requests.entries.lookup key = some t ↔
      s.requests.entries.lookup key = some t ∧ (t = token → call'.phase.live = true))
    (hmem : ∀ e ∈ completing, e ∈ s.completing)
    (hrest : ∀ t r, t ≠ token → (t, r) ∈ s.completing → (t, r) ∈ completing)
    (hchannel : ∀ r, call'.channel = some r → Brought s.log call r)
    (hresult : ∀ value, call'.phase.result = some (some (.ok value)) →
      ∃ n, Brought s.log call ⟨n, value⟩)
    (hwaits : ∀ n, call'.phase.listening = true → call.taken = some n → call'.channel = none →
      ∃ r, (token, r) ∈ completing) :
    Inv { s with requests, calls := s.calls.set token call', completing } where
  entry key t := by
    rw [hentry key t, h.entry key t]
    constructor
    · rintro ⟨⟨c, hc, hck, hclive, hnone⟩, hown⟩
      obtain ⟨c', hc', ⟨rfl, rfl, rfl⟩ | ⟨-, rfl⟩⟩ := Cells.exists_getElem?_set call' hcall hc
      · exact ⟨c', hc', hkey.trans hck, hown rfl, htaken.trans hnone⟩
      · exact ⟨c', hc', hck, hclive, hnone⟩
    · rintro ⟨c, hc, hck, hclive, hnone⟩
      rcases Cells.getElem?_set_cases hcall hc with ⟨rfl, rfl⟩ | ⟨ht, hc⟩
      · exact ⟨⟨call, hcall, hkey.symm.trans hck, hlive hclive, htaken.symm.trans hnone⟩,
          fun _ => hclive⟩
      · exact ⟨⟨c, hc, hck, hclive, hnone⟩, fun heq => absurd heq ht⟩
  since_le t c hc := by
    rcases Cells.getElem?_set_cases hcall hc with ⟨rfl, rfl⟩ | ⟨-, hc⟩
    · rw [hsince]
      exact h.since_le _ call hcall
    · exact h.since_le t c hc
  taken t c n hc hn := by
    rcases Cells.getElem?_set_cases hcall hc with ⟨rfl, rfl⟩ | ⟨-, hc⟩
    · rw [htaken] at hn
      obtain ⟨value, hb⟩ := h.taken _ call n hcall hn
      exact ⟨value, hb.congr hkey hsince htaken⟩
    · exact h.taken t c n hc hn
  single t t' c c' n hc hc' hn hn' := by
    have hold : ∀ (t : ℕ) (c : Call κ τ), (s.calls.set token call')[t]? = some c →
        c.taken = some n → ∃ d : Call κ τ, s.calls[t]? = some d ∧ d.taken = some n := by
      intro t c hc hn
      rcases Cells.getElem?_set_cases hcall hc with ⟨rfl, rfl⟩ | ⟨-, hc⟩
      · exact ⟨call, hcall, htaken.symm.trans hn⟩
      · exact ⟨c, hc, hn⟩
    obtain ⟨d, hd, hdn⟩ := hold t c hc hn
    obtain ⟨d', hd', hdn'⟩ := hold t' c' hc' hn'
    exact h.single t t' d d' n hd hd' hdn hdn'
  sender t r hr := by
    obtain ⟨c, hc, hb⟩ := h.sender t r (hmem _ hr)
    obtain ⟨c', hc', ⟨rfl, rfl, rfl⟩ | ⟨-, rfl⟩⟩ := Cells.exists_getElem?_set call' hcall hc
    · exact ⟨c', hc', hb.congr hkey hsince htaken⟩
    · exact ⟨c', hc', hb⟩
  channel t c r hc hr := by
    rcases Cells.getElem?_set_cases hcall hc with ⟨rfl, rfl⟩ | ⟨-, hc⟩
    · exact (hchannel r hr).congr hkey hsince htaken
    · exact h.channel t c r hc hr
  result t c value hc hvalue := by
    rcases Cells.getElem?_set_cases hcall hc with ⟨rfl, rfl⟩ | ⟨-, hc⟩
    · obtain ⟨n, hb⟩ := hresult value hvalue
      exact ⟨n, hb.congr hkey hsince htaken⟩
    · exact h.result t c value hc hvalue
  waits t c n hc hlistening hn hempty := by
    rcases Cells.getElem?_set_cases hcall hc with ⟨rfl, rfl⟩ | ⟨ht, hc⟩
    · exact hwaits n hlistening (htaken.symm.trans hn) hempty
    · obtain ⟨r, hr⟩ := h.waits t c n hc hlistening hn hempty
      exact ⟨r, hrest t r ht hr⟩

/-- A step that moves one call on leaves the map, the senders and the log as they are. -/
theorem Inv.advance (h : Inv s) (hcall : s.calls[token]? = some call) (ha : Advances call call') :
    Inv (s.setCall token call') := by
  apply h.replace hcall ha.key_eq ha.since_eq ha.taken_eq
  · exact fun _ => Phase.live_of_listening ha.listening
  · exact fun key t => (and_iff_left fun _ => ha.live).symm
  · exact fun e he => he
  · exact fun t r _ hr => hr
  · intro r hr
    rcases ha.channel with hsame | ⟨hnone, -⟩
    · exact h.channel token call r hcall (hsame.symm.trans hr)
    · rw [hnone] at hr
      cases hr
  · intro value hvalue
    obtain ⟨n, hn⟩ := ha.result value hvalue
    exact ⟨n, h.channel token call _ hcall hn⟩
  · intro n hlistening hn hempty
    rcases ha.channel with hsame | ⟨-, hdeaf⟩
    · exact h.waits token call n hcall ha.listening hn (hsame.symm.trans hempty)
    · rw [hdeaf] at hlistening
      cases hlistening

/-- A call begins: it has got nothing yet, and it is in the map if it waits. -/
structure Begins (s : Sys κ τ) (requests : PendingRequests κ) (call : Call κ τ) : Prop where
  since_eq : call.since = s.log.length
  taken_eq : call.taken = none
  channel_eq : call.channel = none
  result_ne : ∀ value, call.phase.result ≠ some (some (.ok value))
  entry : ∀ key t, requests.entries.lookup key = some t ↔
    s.requests.entries.lookup key = some t ∨
      key = call.key ∧ t = s.calls.length ∧ call.phase.live = true

theorem Inv.append {requests : PendingRequests κ} (h : Inv s) (hb : Begins s requests call) :
    Inv { s with requests, calls := s.calls ++ [call] } where
  entry key t := by
    rw [hb.entry key t, h.entry key t]
    constructor
    · rintro (⟨c, hc, hrest⟩ | ⟨rfl, rfl, hlive⟩)
      · have hlt : t < s.calls.length := (List.getElem?_eq_some_iff.mp hc).1
        refine ⟨c, ?_, hrest⟩
        rw [List.getElem?_append_left hlt]
        exact hc
      · exact ⟨call, List.getElem?_concat_length, rfl, hlive, hb.taken_eq⟩
    · rintro ⟨c, hc, hkey, hlive, hnone⟩
      rcases Cells.getElem?_append_cases hc with ⟨rfl, rfl⟩ | ⟨-, hc⟩
      · exact .inr ⟨hkey.symm, rfl, hlive⟩
      · exact .inl ⟨c, hc, hkey, hlive, hnone⟩
  since_le t c hc := by
    rcases Cells.getElem?_append_cases hc with ⟨rfl, rfl⟩ | ⟨-, hc⟩
    · exact hb.since_eq.le
    · exact h.since_le t c hc
  taken t c n hc hn := by
    rcases Cells.getElem?_append_cases hc with ⟨rfl, rfl⟩ | ⟨-, hc⟩
    · rw [hb.taken_eq] at hn
      cases hn
    · exact h.taken t c n hc hn
  single t t' c c' n hc hc' hn hn' := by
    rcases Cells.getElem?_append_cases hc with ⟨rfl, rfl⟩ | ⟨-, hc₀⟩
    · rw [hb.taken_eq] at hn
      cases hn
    · rcases Cells.getElem?_append_cases hc' with ⟨rfl, rfl⟩ | ⟨-, hc₀'⟩
      · rw [hb.taken_eq] at hn'
        cases hn'
      · exact h.single t t' c c' n hc₀ hc₀' hn hn'
  sender t r hr := by
    obtain ⟨c, hc, hbrought⟩ := h.sender t r hr
    have hlt : t < s.calls.length := (List.getElem?_eq_some_iff.mp hc).1
    refine ⟨c, ?_, hbrought⟩
    rw [List.getElem?_append_left hlt]
    exact hc
  channel t c r hc hr := by
    rcases Cells.getElem?_append_cases hc with ⟨rfl, rfl⟩ | ⟨-, hc⟩
    · rw [hb.channel_eq] at hr
      cases hr
    · exact h.channel t c r hc hr
  result t c value hc hvalue := by
    rcases Cells.getElem?_append_cases hc with ⟨rfl, rfl⟩ | ⟨-, hc⟩
    · exact absurd hvalue (hb.result_ne value)
    · exact h.result t c value hc hvalue
  waits t c n hc hlistening hn hnone := by
    rcases Cells.getElem?_append_cases hc with ⟨rfl, rfl⟩ | ⟨-, hc⟩
    · rw [hb.taken_eq] at hn
      cases hn
    · exact h.waits t c n hc hlistening hn hnone

/-- `complete` finds nobody. -/
theorem Inv.log_append (h : Inv s) (entry : κ × τ) : Inv { s with log := s.log ++ [entry] } where
  entry := h.entry
  since_le t c hc := by
    have hle := h.since_le t c hc
    rw [List.length_append]
    omega
  taken t c n hc hn := by
    obtain ⟨value, hb⟩ := h.taken t c n hc hn
    exact ⟨value, hb.append entry⟩
  single := h.single
  sender t r hr := by
    obtain ⟨c, hc, hb⟩ := h.sender t r hr
    exact ⟨c, hc, hb.append entry⟩
  channel t c r hc hr := (h.channel t c r hc hr).append entry
  result t c value hc hvalue := by
    obtain ⟨n, hb⟩ := h.result t c value hc hvalue
    exact ⟨n, hb.append entry⟩
  waits := h.waits

/-- `complete` takes the entry of the one call that is registered under the key. -/
theorem Inv.take {key : κ} {value : τ} (h : Inv s)
    (hlookup : s.requests.entries.lookup key = some token) :
    Inv { s with
      requests := (s.requests.complete key).2
      calls := s.calls.modify token fun call => { call with taken := some s.log.length }
      completing := s.completing ++ [(token, ⟨s.log.length, value⟩)]
      log := s.log ++ [(key, value)] } := by
  obtain ⟨call, hcall, rfl, hlive, hnone⟩ := (h.entry key token).mp hlookup
  rw [Cells.modify_eq_set _ hcall]
  have hl := h.log_append (call.key, value)
  have hnew : Brought (s.log ++ [(call.key, value)])
      { call with taken := some s.log.length } ⟨s.log.length, value⟩ :=
    ⟨rfl, h.since_le token call hcall, List.getElem?_concat_length⟩
  have hfresh : ∀ r, ¬ Brought s.log call r := by
    intro r hb
    have htaken := hb.taken
    rw [hnone] at htaken
    cases htaken
  have hlt : ∀ (t : ℕ) (c : Call κ τ) n, s.calls[t]? = some c → c.taken = some n →
      n < s.log.length := by
    intro t c n hc hn
    obtain ⟨v, hb⟩ := h.taken t c n hc hn
    exact (List.getElem?_eq_some_iff.mp hb.logged).1
  refine ⟨?_, ?_, ?_, ?_, ?_, ?_, ?_, ?_⟩
  · intro key' t
    constructor
    · intro hfound
      obtain ⟨hne, hfound⟩ := PendingRequests.lookup_complete hfound
      obtain ⟨c, hc, hkey, hrest⟩ := (h.entry key' t).mp hfound
      obtain ⟨c', hc', ⟨-, rfl, -⟩ | ⟨-, rfl⟩⟩ :=
        Cells.exists_getElem?_set { call with taken := some s.log.length } hcall hc
      · exact absurd hkey.symm hne
      · exact ⟨c', hc', hkey, hrest⟩
    · rintro ⟨c, hc, hkey, hlive', hnone'⟩
      rcases Cells.getElem?_set_cases hcall hc with ⟨rfl, rfl⟩ | ⟨ht, hc⟩
      · cases hnone'
      · have hfound := (h.entry key' t).mpr ⟨c, hc, hkey, hlive', hnone'⟩
        have hne : key' ≠ call.key := by
          rintro rfl
          rw [hlookup] at hfound
          exact ht (Option.some.inj hfound).symm
        rw [PendingRequests.lookup_complete_ne hne]
        exact hfound
  · intro t c hc
    rcases Cells.getElem?_set_cases hcall hc with ⟨rfl, rfl⟩ | ⟨-, hc⟩
    · exact hl.since_le _ call hcall
    · exact hl.since_le t c hc
  · intro t c n hc hn
    rcases Cells.getElem?_set_cases hcall hc with ⟨rfl, rfl⟩ | ⟨-, hc⟩
    · rw [← Option.some.inj hn]
      exact ⟨value, hnew⟩
    · exact hl.taken t c n hc hn
  · intro t t' c c' n hc hc' hn hn'
    rcases Cells.getElem?_set_cases hcall hc with ⟨ht, rfl⟩ | ⟨-, hc₀⟩
    · rcases Cells.getElem?_set_cases hcall hc' with ⟨ht', -⟩ | ⟨-, hc₀'⟩
      · rw [ht, ht']
      · have hpast := hlt t' c' n hc₀' hn'
        have hn := Option.some.inj hn
        omega
    · rcases Cells.getElem?_set_cases hcall hc' with ⟨-, rfl⟩ | ⟨-, hc₀'⟩
      · have hpast := hlt t c n hc₀ hn
        have hn' := Option.some.inj hn'
        omega
      · exact h.single t t' c c' n hc₀ hc₀' hn hn'
  · intro t r hr
    rcases List.mem_append.mp hr with hr | hr
    · obtain ⟨c, hc, hb⟩ := h.sender t r hr
      obtain ⟨c', hc', ⟨-, rfl, -⟩ | ⟨-, rfl⟩⟩ :=
        Cells.exists_getElem?_set { call with taken := some s.log.length } hcall hc
      · exact absurd hb (hfresh r)
      · exact ⟨c', hc', hb.append _⟩
    · cases List.mem_singleton.mp hr
      have hset : token < s.calls.length := (List.getElem?_eq_some_iff.mp hcall).1
      exact ⟨_, List.getElem?_set_self hset, hnew⟩
  · intro t c r hc hr
    rcases Cells.getElem?_set_cases hcall hc with ⟨rfl, rfl⟩ | ⟨-, hc⟩
    · exact absurd (h.channel _ call r hcall hr) (hfresh r)
    · exact hl.channel t c r hc hr
  · intro t c v hc hv
    rcases Cells.getElem?_set_cases hcall hc with ⟨rfl, rfl⟩ | ⟨-, hc⟩
    · obtain ⟨n, hb⟩ := h.result _ call v hcall hv
      exact absurd hb (hfresh _)
    · exact hl.result t c v hc hv
  · intro t c n hc hlistening hn hempty
    rcases Cells.getElem?_set_cases hcall hc with ⟨rfl, rfl⟩ | ⟨-, hc⟩
    · exact ⟨_, List.mem_append_right _ List.mem_cons_self⟩
    · obtain ⟨r, hr⟩ := h.waits t c n hc hlistening hn hempty
      exact ⟨r, List.mem_append_left _ hr⟩

/-- A sender is used up; what it brings is what its call waits for. -/
theorem Inv.send {index : ℕ} (h : Inv s) (hsender : s.completing[index]? = some (token, r)) :
    Inv { s with
      calls := s.calls.modify token (Call.accept r)
      completing := s.completing.eraseIdx index } := by
  obtain ⟨call, hcall, hb⟩ := h.sender token r (List.mem_of_getElem? hsender)
  rw [Cells.modify_eq_set _ hcall]
  have hsame : (Call.accept r call).key = call.key ∧ (Call.accept r call).since = call.since ∧
      (Call.accept r call).taken = call.taken ∧ (Call.accept r call).phase = call.phase := by
    unfold Call.accept
    split_ifs
    · exact ⟨rfl, rfl, rfl, rfl⟩
    · exact ⟨rfl, rfl, rfl, rfl⟩
  obtain ⟨hkey, hsince, htaken, hphase⟩ := hsame
  apply h.replace hcall hkey hsince htaken
  · rw [hphase]
    exact fun hlive => hlive
  · intro key t
    constructor
    · intro hfound
      refine ⟨hfound, ?_⟩
      rintro rfl
      obtain ⟨c, hc, -, hlive, -⟩ := (h.entry key t).mp hfound
      rw [hcall] at hc
      rw [hphase, Option.some.inj hc]
      exact hlive
    · exact fun hfound => hfound.1
  · exact fun e he => List.mem_of_mem_eraseIdx he
  · intro t r' ht hr'
    obtain ⟨i, hi, hget⟩ := List.getElem_of_mem hr'
    have hget? : s.completing[i]? = some (t, r') := by rw [List.getElem?_eq_getElem hi, hget]
    have hne : i ≠ index := by
      rintro rfl
      rw [hget?] at hsender
      exact ht (congrArg Prod.fst (Option.some.inj hsender))
    exact List.mem_eraseIdx_iff_getElem?.mpr ⟨i, hne, hget?⟩
  · intro r' hr'
    unfold Call.accept at hr'
    split_ifs at hr'
    · rw [← Option.some.inj hr']
      exact hb
    · exact h.channel token call r' hcall hr'
  · rw [hphase]
    exact fun value hvalue => h.result token call value hcall hvalue
  · intro n hlistening _ hempty
    rw [hphase] at hlistening
    simp [Call.accept, hlistening] at hempty

/-- The end of a registration takes nothing but its own entry from the map. -/
theorem Inv.drop {result : Option (Except RequestError τ)} (h : Inv s)
    (hcall : s.calls[token]? = some call) (hphase : call.phase = .ending result) :
    Inv { s.setCall token { call with phase := .ended result } with
      requests := s.requests.drop call.key token } := by
  apply h.replace hcall
  · rfl
  · rfl
  · rfl
  · exact fun hlive => by cases hlive
  · intro key t
    constructor
    · intro hkept
      obtain ⟨hfound, hne⟩ := PendingRequests.lookup_drop hkept
      refine ⟨hfound, ?_⟩
      rintro rfl
      obtain ⟨c, hc, hkey, -⟩ := (h.entry key t).mp hfound
      rw [hcall] at hc
      have hsame : call = c := Option.some.inj hc
      rw [← hsame] at hkey
      exact absurd ⟨hkey.symm, rfl⟩ hne
    · rintro ⟨hfound, hown⟩
      apply PendingRequests.lookup_drop_of_ne hfound
      rintro rfl
      cases hown rfl
  · exact fun e he => he
  · exact fun t r _ hr => hr
  · exact fun r hr => h.channel token call r hcall hr
  · intro value hvalue
    have hending : call.phase.result = some (some (.ok value)) := by
      rw [hphase]
      exact hvalue
    exact h.result token call value hcall hending
  · intro n hlistening
    cases hlistening

/-- What a step does. -/
inductive Effect (s : Sys κ τ) : Sys κ τ → Prop where
  | begins {requests : PendingRequests κ} {call : Call κ τ} (h : Begins s requests call) :
    Effect s { s with requests, calls := s.calls ++ [call] }
  | advances {token : ℕ} {call call' : Call κ τ} (hcall : s.calls[token]? = some call) (h : Advances call call') :
    Effect s (s.setCall token call')
  | missed (entry : κ × τ) : Effect s { s with log := s.log ++ [entry] }
  | takes {key : κ} {token : ℕ} (value : τ)
    (h : s.requests.entries.lookup key = some token) :
    Effect s { s with
      requests := (s.requests.complete key).2
      calls := s.calls.modify token fun call => { call with taken := some s.log.length }
      completing := s.completing ++ [(token, ⟨s.log.length, value⟩)]
      log := s.log ++ [(key, value)] }
  | sends {index token : ℕ} {r : Response τ} (h : s.completing[index]? = some (token, r)) :
    Effect s { s with
      calls := s.calls.modify token (Call.accept r)
      completing := s.completing.eraseIdx index }
  | drops {token : ℕ} {call : Call κ τ} {result : Option (Except RequestError τ)}
    (hcall : s.calls[token]? = some call)
    (hphase : call.phase = .ending result) :
    Effect s { s.setCall token { call with phase := .ended result } with
      requests := s.requests.drop call.key token }

/-- A call that is not registered ends at once and leaves the map. -/
theorem Begins.refused {key : κ} (error : RequestError) :
    Begins s s.requests ⟨key, .ended (some (.error error)), none, s.log.length, none⟩ where
  since_eq := rfl
  taken_eq := rfl
  channel_eq := rfl
  result_ne value h := by cases h
  entry key' t := by
    refine ⟨.inl, ?_⟩
    rintro (hfound | ⟨-, -, hlive⟩)
    · exact hfound
    · cases hlive

theorem Begins.registered {key : κ} {requests : PendingRequests κ}
    (h : s.requests.register key s.calls.length = .ok requests) :
    Begins s requests ⟨key, .sending, none, s.log.length, none⟩ where
  since_eq := rfl
  taken_eq := rfl
  channel_eq := rfl
  result_ne value h := by cases h
  entry key' t := by
    obtain ⟨hnone, hentries⟩ := PendingRequests.register_ok h
    rw [hentries]
    constructor
    · intro hfound
      rcases Table.lookup_insert_cases hfound with ⟨rfl, rfl⟩ | ⟨-, hfound⟩
      · exact .inr ⟨rfl, rfl, rfl⟩
      · exact .inl hfound
    · rintro (hfound | ⟨rfl, rfl, -⟩)
      · have hne : key' ≠ key := by
          rintro rfl
          rw [hnone] at hfound
          cases hfound
        rw [AList.lookup_insert_ne hne]
        exact hfound
      · exact AList.lookup_insert _

theorem effect_of_step (hstep : s.step a = some s') : Effect s s' := by
  cases a with
  | request key expired =>
    simp only [Sys.step] at hstep
    split_ifs at hstep
    · rw [← Option.some.inj hstep]
      exact .begins (Begins.refused _)
    · split at hstep
      · rw [← Option.some.inj hstep]
        exact .begins (Begins.refused _)
      · rw [← Option.some.inj hstep]
        exact .begins (Begins.registered ‹_›)
  | enqueued token =>
    simp only [Sys.step] at hstep
    split at hstep
    · rename_i call hcall
      split at hstep
      · rename_i hphase
        rw [← Option.some.inj hstep]
        refine .advances hcall ⟨rfl, rfl, rfl, by rw [hphase]; rfl, rfl, .inl rfl, ?_⟩
        intro value hvalue
        cases hvalue
      · cases hstep
    · cases hstep
  | queueClosed token =>
    simp only [Sys.step] at hstep
    split at hstep
    · rename_i call hcall
      split at hstep
      · rename_i hphase
        rw [← Option.some.inj hstep]
        exact .advances hcall (Advances.ending (by rw [hphase]; rfl) (fun value h => by cases h))
      · cases hstep
    · cases hstep
  | complete key value =>
    simp only [Sys.step] at hstep
    split at hstep
    · rw [← Option.some.inj hstep]
      exact .missed _
    · rw [← Option.some.inj hstep]
      exact .takes value ‹_›
  | send index =>
    simp only [Sys.step] at hstep
    split at hstep
    · cases hstep
    · rw [← Option.some.inj hstep]
      exact .sends ‹_›
  | receive token =>
    simp only [Sys.step] at hstep
    split at hstep
    · rename_i call hcall
      split at hstep
      · rename_i response hphase hchannel
        rw [← Option.some.inj hstep]
        refine .advances hcall ⟨rfl, rfl, rfl, by rw [hphase]; rfl, rfl, .inr ⟨rfl, rfl⟩, ?_⟩
        intro value hvalue
        cases hvalue
        exact ⟨response.position, hchannel⟩
      · cases hstep
    · cases hstep
  | responseClosed token =>
    simp only [Sys.step] at hstep
    split at hstep
    · rename_i call hcall
      split at hstep
      · rename_i hphase
        split_ifs at hstep
        rw [← Option.some.inj hstep]
        exact .advances hcall (Advances.ending (by rw [hphase]; rfl) (fun value h => by cases h))
      · cases hstep
    · cases hstep
  | timeout token =>
    simp only [Sys.step] at hstep
    split at hstep
    · rename_i call hcall
      split_ifs at hstep with hlistening
      rw [← Option.some.inj hstep]
      exact .advances hcall (Advances.ending hlistening (fun value h => by cases h))
    · cases hstep
  | cancel token =>
    simp only [Sys.step] at hstep
    split at hstep
    · rename_i call hcall
      split_ifs at hstep with hlistening
      rw [← Option.some.inj hstep]
      exact .advances hcall (Advances.ending hlistening (fun value h => by cases h))
    · cases hstep
  | drop token =>
    simp only [Sys.step] at hstep
    split at hstep
    · rename_i call hcall
      split at hstep
      · rw [← Option.some.inj hstep]
        exact .drops hcall ‹_›
      · cases hstep
    · cases hstep

theorem Inv.step (h : Inv s) (hstep : s.step a = some s') : Inv s' := by
  cases effect_of_step hstep with
  | begins hb => exact h.append hb
  | advances hcall ha => exact h.advance hcall ha
  | missed entry => exact h.log_append entry
  | takes value hlookup => exact h.take hlookup
  | sends hsender => exact h.send hsender
  | drops hcall hphase => exact h.drop hcall hphase

theorem inv_start : Inv (machine κ τ).start where
  entry key token := by simp [machine]
  since_le token call h := by simp [machine] at h
  taken token call n h := by simp [machine] at h
  single token token' call call' n h := by simp [machine] at h
  sender token r h := by simp [machine] at h
  channel token call r h := by simp [machine] at h
  result token call value h := by simp [machine] at h
  waits token call n h := by simp [machine] at h

theorem inv_of_reachable (h : (machine κ τ).Reachable s) : Inv s :=
  h.invariant inv_start fun _ _ _ ht hstep => ht.step hstep

/-- What a call has got it keeps, so it gets no second answer. -/
theorem result_of_step (hstep : s.step a = some s') (hcall : s.calls[token]? = some call)
    {result : Option (Except RequestError τ)} (hresult : call.phase.result = some result) :
    ∃ call' : Call κ τ, s'.calls[token]? = some call' ∧ call'.phase.result = some result := by
  have hdeaf : call.phase.listening = false := by
    cases hphase : call.phase with
    | sending | waiting =>
      rw [hphase] at hresult
      cases hresult
    | ending | ended => rfl
  cases effect_of_step hstep with
  | @begins _ c hb =>
    have hlt : token < s.calls.length := (List.getElem?_eq_some_iff.mp hcall).1
    refine ⟨call, ?_, hresult⟩
    rw [List.getElem?_append_left hlt]
    exact hcall
  | @advances t c c' hc ha =>
    obtain ⟨d, hd, ⟨-, rfl, -⟩ | ⟨-, rfl⟩⟩ := Cells.exists_getElem?_set c' hc hcall
    · rw [ha.listening] at hdeaf
      cases hdeaf
    · exact ⟨d, hd, hresult⟩
  | missed entry => exact ⟨call, hcall, hresult⟩
  | takes value hlookup =>
    rw [List.getElem?_modify, hcall]
    refine ⟨_, rfl, ?_⟩
    split_ifs
    · exact hresult
    · exact hresult
  | @sends index t r hsender =>
    rw [List.getElem?_modify, hcall]
    refine ⟨_, rfl, ?_⟩
    split_ifs
    · simp only [Call.accept, hdeaf]
      exact hresult
    · exact hresult
  | @drops t c result' hc hphase =>
    obtain ⟨d, hd, ⟨-, rfl, rfl⟩ | ⟨-, rfl⟩⟩ :=
      Cells.exists_getElem?_set { c with phase := .ended result' } hc hcall
    · rw [hphase] at hresult
      exact ⟨_, hd, hresult⟩
    · exact ⟨d, hd, hresult⟩

/-- The sender of a call that listens is in the map or on its way, until the answer is there. -/
theorem Inv.senderGone_eq (h : Inv s) (hcall : s.calls[token]? = some call)
    (hlistening : call.phase.listening = true) : s.senderGone token call = false := by
  unfold Sys.senderGone
  cases htaken : call.taken with
  | none =>
    have hentry := (h.entry call.key token).mpr
      ⟨call, hcall, rfl, Phase.live_of_listening hlistening, htaken⟩
    simp [hentry]
  | some n =>
    cases hchannel : call.channel with
    | some r => simp
    | none =>
      obtain ⟨r, hr⟩ := h.waits token call n hcall hlistening htaken hchannel
      have hsome : (s.completing.all fun sender => sender.1 ≠ token) = false := by
        rw [List.all_eq_false]
        exact ⟨(token, r), hr, by simp⟩
      rw [hsome]
      simp

/-- Every answer goes to the one call that waited for it. -/
structure Answered (s : Sys κ τ) : Prop where
  /-- The map has the registrations that are neither dropped nor completed, and no others. -/
  entry : ∀ key token, s.requests.entries.lookup key = some token ↔
    ∃ call : Call κ τ, s.calls[token]? = some call ∧ call.key = key ∧ call.phase.live = true ∧
      call.taken = none
  /-- What a call has got was completed under its key after it had registered. -/
  answered : ∀ (token : ℕ) (call : Call κ τ) value, s.calls[token]? = some call →
    call.phase.result = some (some (.ok value)) → ∃ n, Brought s.log call ⟨n, value⟩
  /-- A call of `complete` takes the entry of one call at most. -/
  single : ∀ (token token' : ℕ) (call call' : Call κ τ) (n : ℕ), s.calls[token]? = some call →
    s.calls[token']? = some call' → call.taken = some n → call'.taken = some n → token = token'
  /-- A call that has ended gets no other result. -/
  once : ∀ (a : Action κ τ) (s' : Sys κ τ) (token : ℕ) (call : Call κ τ)
    (result : Option (Except RequestError τ)), s.step a = some s' →
    s.calls[token]? = some call → call.phase.result = some result →
      ∃ call' : Call κ τ, s'.calls[token]? = some call' ∧ call'.phase.result = some result
  /-- No receiver is left without its sender. -/
  open_channel : ∀ token, s.step (.responseClosed token) = none
  /-- The end of a registration leaves those of all other calls. -/
  own : ∀ (token token' : ℕ) (s' : Sys κ τ) (key : κ), s.step (.drop token) = some s' →
    token' ≠ token →
      (s'.requests.entries.lookup key = some token' ↔
        s.requests.entries.lookup key = some token')

theorem answered_of_reachable (h : (machine κ τ).Reachable s) : Answered s where
  entry := (inv_of_reachable h).entry
  answered := (inv_of_reachable h).result
  single := (inv_of_reachable h).single
  once _ _ _ _ _ hstep hcall hresult := result_of_step hstep hcall hresult
  open_channel token := by
    cases hcall : s.calls[token]? with
    | none => simp [Sys.step, hcall]
    | some call =>
      cases hphase : call.phase with
      | waiting =>
        have hgone := (inv_of_reachable h).senderGone_eq hcall (by rw [hphase]; rfl)
        simp [Sys.step, hcall, hphase, hgone]
      | sending | ending | ended => simp [Sys.step, hcall, hphase]
  own token token' s' key hstep hne := by
    simp only [Sys.step] at hstep
    split at hstep
    · split at hstep
      · rw [← Option.some.inj hstep]
        constructor
        · exact fun hfound => (PendingRequests.lookup_drop hfound).1
        · exact fun hfound => PendingRequests.lookup_drop_of_ne hfound hne
      · cases hstep
    · cases hstep

/-- An old registration is dropped while a newer one of its key waits. -/
def replaced : List (Action ℕ ℕ) :=
  [.request 1 false, .enqueued 0, .complete 1 7, .send 0, .receive 0, .request 1 false,
    .enqueued 1, .drop 0, .complete 1 8, .send 0, .receive 1, .drop 1]

theorem exec_replaced : ((machine ℕ ℕ).exec replaced).isSome := by decide

theorem answered_of_reachable_replaced : Answered (Option.get _ exec_replaced) :=
  answered_of_reachable (Machine.reachable_of_exec (Option.some_get exec_replaced).symm)

end Waiters
end FlowSplice.Relay
