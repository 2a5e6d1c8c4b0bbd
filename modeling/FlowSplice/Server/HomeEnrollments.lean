import FlowSplice.Lib.Keyed
import FlowSplice.Lib.Machine
import FlowSplice.Lib.Slots
import FlowSplice.Protocol

/-! The dispatches of Home enrollments: `dispatch_home_enrollment`, `complete_home_enrollment`,
`fail_home_enrollment_dispatch` and the cleanup of `server/src/main.rs`, run in any order. -/
namespace FlowSplice.Server.HomeEnrollments

/-- A `HomeResponseEnvelope`: the request that it approves, the Home of its endpoint credential, and
whether its signatures verify. -/
structure HomeResponse where
  requestId : Uuid
  homeId : String
  requestDigest : String
  endpointHomeId : String
  verified : Bool
deriving DecidableEq, Repr

/-- `HomeBootstrapEnrollmentResult`. -/
structure Answer where
  accepted : Bool
  response : Option HomeResponse := none
  error : Option String := none
deriving DecidableEq, Repr

/-- The Server keeps one of these under the id of a request. `response` tells whether the sender of
the dispatch is still here. -/
structure PendingHomeEnrollment where
  dispatchId : ℕ
  homeId : String
  requestDigest : String
  remainingResponders : ℕ
  anyAccepted : Bool := false
  response : Bool := true
  lastError : Option String := none
  expires : ℕ
deriving DecidableEq, Repr

inductive DispatchError where
  | channelClosed
  | timedOut
deriving DecidableEq, Repr

/-- A call of `dispatch_home_enrollment`, which waits for its answer until its deadline. `sending`
and `delivered` tell how far the submissions to its responders are. `sent` are the answers put into
its channel, and `closed` that its sender was dropped instead. The last three fields are for
statements: the responders that the record has counted, those whose response could not be imported,
and what has answered the dispatch, counted for it or removed its record, as the dispatches that
those results were for. -/
structure Dispatch where
  requestId : Uuid
  homeId : String
  requestDigest : String
  responders : List String
  deadline : ℕ
  sending : List String
  delivered : List String := []
  sent : List Answer := []
  closed : Bool := false
  result : Option (Except DispatchError Answer) := none
  counted : List String := []
  failed : List String := []
  touchedBy : List (Option ℕ) := []

/-- A call of `complete_home_enrollment` that imports a response. It holds the sender of a dispatch,
if it was the first to take it. -/
structure Completion where
  home : String
  requestId : Uuid
  sender : Option ℕ
  response : HomeResponse
  origin : Option ℕ
  imported : Bool := false
deriving DecidableEq, Repr

structure Sys where
  pending : Table Uuid PendingHomeEnrollment := ∅
  dispatches : Slots Dispatch := {}
  completions : Slots Completion := {}
  now : ℕ := 0

/-- `origin` is the dispatch whose submission a result answers, if any. -/
inductive Action where
  | dispatch (requestId : Uuid) (homeId requestDigest : String) (eligible : List String)
      (deadline : ℕ)
  | deliver (d : ℕ) (home : String)
  | sendFails (d : ℕ) (home error : String)
  | complete (home : String) (isGlobalIssuer : Bool) (requestId : Uuid) (accepted unreadable : Bool)
      (response : Option HomeResponse) (error : Option String) (origin : Option ℕ)
  | imported (i : ℕ)
  | importFails (i : ℕ)
  | finish (i : ℕ)
  | receive (d : ℕ)
  | closedChannel (d : ℕ)
  | timeout (d : ℕ)
  | leave (d : ℕ)
  | cleanup (requestId : Uuid)
  | tick (now : ℕ)
deriving DecidableEq, Repr

/-- The response of a responder could not be imported. -/
def Dispatch.fail (x : Dispatch) (home : String) : Dispatch := { x with failed := home :: x.failed }

def issuerTimedOut : Answer where
  accepted := false
  error := some "Home enrollment issuer response timed out"

/-- The check of a response against the record of its request. -/
def PendingHomeEnrollment.matches (record : PendingHomeEnrollment) (requestId : Uuid)
    (response : HomeResponse) : Bool :=
  response.requestId == requestId && response.homeId == record.homeId &&
    response.requestDigest == record.requestDigest && response.verified &&
    response.endpointHomeId == record.homeId

namespace Sys
variable (s : Sys)

def update (d : ℕ) (f : Dispatch → Dispatch) : Sys :=
  { s with dispatches := s.dispatches.set d ((s.dispatches.get d).map f) }

/-- The sender answers. -/
def send (d : ℕ) (answer : Answer) : Sys :=
  s.update d fun x => { x with sent := x.sent ++ [answer] }

/-- What a result was for is noted at the dispatch that it touches. -/
def touch (d : ℕ) (origin : Option ℕ) : Sys :=
  s.update d fun x => { x with touchedBy := origin :: x.touchedBy }

/-- A record goes, and with it the sender, if it is there. -/
def removeRecord (requestId : Uuid) (record : PendingHomeEnrollment) : Sys :=
  let next := { s with pending := s.pending.erase requestId }
  if record.response then next.update record.dispatchId fun x => { x with closed := true } else next

/-- One responder less; the last one answers the dispatch. -/
def countResponder (requestId : Uuid) (record : PendingHomeEnrollment) (defaultError : Option String) :
    Sys :=
  let remaining := record.remainingResponders - 1
  if remaining = 0 then
    let next := { s with pending := s.pending.erase requestId }
    let error := if record.anyAccepted then none else record.lastError.or defaultError
    if record.response then next.send record.dispatchId ⟨record.anyAccepted, none, error⟩ else next
  else
    { s with pending := s.pending.insert requestId { record with remainingResponders := remaining } }

def dispatch (requestId : Uuid) (homeId requestDigest : String) (eligible : List String)
    (deadline : ℕ) : Option Sys :=
  if eligible = [] ∨ ¬ eligible.Nodup ∨ (s.pending.lookup requestId).isSome then
    none
  else
    some { s with
      pending := s.pending.insert requestId {
        dispatchId := s.dispatches.next, homeId, requestDigest
        remainingResponders := eligible.length, expires := deadline }
      dispatches := s.dispatches.push {
        requestId, homeId, requestDigest, responders := eligible, deadline, sending := eligible } }

/-- A submission gets into the queue to a Home. -/
def deliver (d : ℕ) (home : String) : Option Sys :=
  (s.dispatches.get d).bind fun x =>
    if home ∈ x.sending then
      some (s.update d fun x => { x with
        sending := x.sending.filter (· ≠ home), delivered := home :: x.delivered })
    else none

/-- `fail_home_enrollment_dispatch`, for a submission of a dispatch that still waits. -/
def sendFails (d : ℕ) (home error : String) : Option Sys :=
  (s.dispatches.get d).bind fun x =>
    if home ∈ x.sending ∧ x.result = none then
      let s := s.update d fun x => { x with sending := x.sending.filter (· ≠ home) }
      match s.pending.lookup x.requestId with
      | none => some s
      | some record =>
        if record.dispatchId ≠ d then some s
        else
          let record := { record with
            lastError := some ("global Home enrollment dispatch failed: " ++ error) }
          some ((s.update d fun x => { x with
            counted := home :: x.counted, touchedBy := some d :: x.touchedBy }).countResponder
              x.requestId record none)
    else none

/-- `complete_home_enrollment` up to the import. A call that fails changes nothing. -/
def complete (home : String) (isGlobalIssuer : Bool) (requestId : Uuid) (accepted unreadable : Bool)
    (response : Option HomeResponse) (error : Option String) (origin : Option ℕ) : Sys :=
  if isGlobalIssuer = false then s
  else
    match s.pending.lookup requestId with
    | none => s
    | some record =>
      if record.expires ≤ s.now then
        (s.touch record.dispatchId origin).removeRecord requestId record
      else
        match response with
        | some response =>
          if accepted = false ∨ unreadable = true ∨ record.matches requestId response = false then s
          else
            let call := {
              home, requestId, response, origin
              sender := if record.response then some record.dispatchId else none }
            { s.touch record.dispatchId origin with
              pending := s.pending.insert requestId { record with response := false }
              completions := s.completions.push call }
        | none =>
          let record := { record with
            anyAccepted := record.anyAccepted || accepted
            lastError := error.or record.lastError }
          (s.update record.dispatchId fun x => { x with
            counted := home :: x.counted, touchedBy := origin :: x.touchedBy }).countResponder
              requestId record (some "all global Homes rejected enrollment")

/-- The credential of the response is imported and broadcast. -/
def imported (i : ℕ) : Option Sys :=
  (s.completions.get i).map fun call =>
    { s with completions := s.completions.set i (some { call with imported := true }) }

/-- The call fails and drops the sender. Its Home has no other answer to the dispatch. -/
def importFails (i : ℕ) : Option Sys :=
  (s.completions.get i).bind fun call =>
    if call.imported then none
    else
      let next := { s with completions := s.completions.set i none }
      let next := match call.origin with
        | none => next
        | some d => next.update d (·.fail call.home)
      match call.sender with
      | none => some next
      | some d => some (next.update d fun x => { x with closed := true })

/-- The end of the call: whatever record there is goes, and the dispatch is answered. -/
def finish (i : ℕ) : Option Sys :=
  (s.completions.get i).bind fun call =>
    if call.imported = false then none
    else
      let next := { s with completions := s.completions.set i none }
      let next := match s.pending.lookup call.requestId with
        | none => next
        | some record =>
          (next.touch record.dispatchId call.origin).removeRecord call.requestId record
      match call.sender with
      | none => some next
      | some d => some (next.send d ⟨true, some call.response, none⟩)

/-- A waiting dispatch takes what has come. -/
def settle (d : ℕ) (choose : Dispatch → Option (Except DispatchError Answer)) : Option Sys :=
  (s.dispatches.get d).bind fun x =>
    if x.result = none then
      (choose x).map fun result => s.update d fun x => { x with result := some result }
    else none

/-- After its result a dispatch removes its own record. -/
def leave (d : ℕ) : Option Sys :=
  (s.dispatches.get d).bind fun x =>
    if x.result = none then none
    else
      match s.pending.lookup x.requestId with
      | none => some s
      | some record =>
        if record.dispatchId = d then some (s.removeRecord x.requestId record) else some s

def cleanup (requestId : Uuid) : Option Sys :=
  (s.pending.lookup requestId).bind fun record =>
    if s.now < record.expires then none
    else
      let next := { s with pending := s.pending.erase requestId }
      if record.response then some (next.send record.dispatchId issuerTimedOut) else some next

/-- The submission that a result answers has reached the Home. -/
def Answers (home : String) : Option ℕ → Prop
  | none => True
  | some d => ∃ x, s.dispatches.get d = some x ∧ home ∈ x.delivered

instance (home : String) (origin : Option ℕ) : Decidable (s.Answers home origin) :=
  match origin with
  | none => .isTrue trivial
  | some d =>
    match h : s.dispatches.get d with
    | none => .isFalse fun ⟨_, hx, _⟩ => by rw [h] at hx; cases hx
    | some x => decidable_of_iff (home ∈ x.delivered)
        ⟨fun hx => ⟨x, h, hx⟩, fun ⟨y, hy, hmem⟩ => by
          rw [h] at hy
          cases hy
          exact hmem⟩

def step : Action → Option Sys
  | .dispatch requestId homeId requestDigest eligible deadline =>
    s.dispatch requestId homeId requestDigest eligible deadline
  | .deliver d home => s.deliver d home
  | .sendFails d home error => s.sendFails d home error
  | .complete home isGlobalIssuer requestId accepted unreadable response error origin =>
    if s.Answers home origin then
      some (s.complete home isGlobalIssuer requestId accepted unreadable response error origin)
    else none
  | .imported i => s.imported i
  | .importFails i => s.importFails i
  | .finish i => s.finish i
  | .receive d => s.settle d fun x => x.sent.head?.map .ok
  | .closedChannel d => s.settle d fun x => if x.closed then some (.error .channelClosed) else none
  | .timeout d => s.settle d fun x => if x.deadline ≤ s.now then some (.error .timedOut) else none
  | .leave d => s.leave d
  | .cleanup requestId => s.cleanup requestId
  | .tick now => if now < s.now then none else some { s with now }

end Sys

def machine : Machine Sys Action where
  start := {}
  step := Sys.step

/-- Each responder has answered or could not be asked, or its response could not be imported. -/
def Dispatch.Exhausted (x : Dispatch) : Prop :=
  ∀ home ∈ x.responders, home ∈ x.counted ∨ home ∈ x.failed

/-- The dispatch has been told that it is refused, or has failed. -/
def Dispatch.Refused (x : Dispatch) : Prop :=
  (∃ answer ∈ x.sent, answer.accepted = false) ∨ ∃ error, x.result = some (.error error)

/-- A dispatch is answered at most once and for its own request, nothing that was meant for another
dispatch touches it, and it is refused only when no responder can still accept it. -/
structure Dispatch.Undisturbed (now d : ℕ) (x : Dispatch) : Prop where
  once : x.sent.length ≤ 1
  digest : ∀ answer ∈ x.sent, ∀ response ∈ answer.response, response.requestDigest = x.requestDigest
  origin : ∀ origin ∈ x.touchedBy, origin = some d
  refused : x.Refused → x.Exhausted ∨ x.deadline ≤ now

/-- A result that meets a record is for the dispatch of that record, unless it is refused. -/
def Sys.Meets (s : Sys) (record : PendingHomeEnrollment) (home : String) (requestId : Uuid)
    (usable : Bool) (response : Option HomeResponse) (origin : Option ℕ) : Prop :=
  (record.expires ≤ s.now → origin = some record.dispatchId) ∧
    (s.now < record.expires →
      (∀ answer ∈ response, usable = true → record.matches requestId answer = true →
        origin = some record.dispatchId) ∧
      (response = none → origin = some record.dispatchId ∧
        ∀ x ∈ s.dispatches.get record.dispatchId, home ∈ x.responders ∧ home ∉ x.counted))

/-- Results count for the dispatch that they answer, once for each responder; an import that holds
the sender fails only when the others have answered; and the record that a completion removes is
that of its dispatch. -/
def Sys.Apart (s : Sys) : Action → Prop
  | .complete home isGlobalIssuer requestId accepted unreadable response _ origin =>
    ∀ record ∈ s.pending.lookup requestId, isGlobalIssuer = true →
      s.Meets record home requestId (accepted && !unreadable) response origin
  | .importFails i =>
    ∀ call ∈ s.completions.get i, ∀ d ∈ call.sender, ∀ x ∈ s.dispatches.get d,
      (x.fail call.home).Exhausted ∨ x.deadline ≤ s.now
  | .finish i =>
    ∀ call ∈ s.completions.get i, ∀ record ∈ s.pending.lookup call.requestId,
      call.origin = some record.dispatchId
  | _ => True

instance (x : Dispatch) : Decidable x.Exhausted := by
  unfold Dispatch.Exhausted
  infer_instance

instance (s : Sys) (record : PendingHomeEnrollment) (home : String) (requestId : Uuid)
    (usable : Bool) (response : Option HomeResponse) (origin : Option ℕ) :
    Decidable (s.Meets record home requestId usable response origin) := by
  unfold Sys.Meets
  infer_instance

instance (s : Sys) : (a : Action) → Decidable (s.Apart a)
  | .complete home isGlobalIssuer requestId accepted unreadable response _ origin =>
    inferInstanceAs (Decidable (∀ record ∈ s.pending.lookup requestId, isGlobalIssuer = true →
      s.Meets record home requestId (accepted && !unreadable) response origin))
  | .importFails i => inferInstanceAs (Decidable (∀ call ∈ s.completions.get i, ∀ d ∈ call.sender,
      ∀ x ∈ s.dispatches.get d, (x.fail call.home).Exhausted ∨ x.deadline ≤ s.now))
  | .finish i => inferInstanceAs (Decidable (∀ call ∈ s.completions.get i,
      ∀ record ∈ s.pending.lookup call.requestId, call.origin = some record.dispatchId))
  | .dispatch .. | .deliver .. | .sendFails .. | .imported _ | .receive _ | .closedChannel _
  | .timeout _ | .leave _ | .cleanup _ | .tick _ => .isTrue trivial

/-- The sender has not been used. -/
def Dispatch.Free (x : Dispatch) : Prop := x.sent = [] ∧ x.closed = false

/-- The sender of the dispatch is in a record or in a completion. -/
def Sys.Held (s : Sys) (d : ℕ) : Prop :=
  (∃ id record, s.pending.lookup id = some record ∧ record.dispatchId = d ∧
    record.response = true) ∨
  ∃ i call, s.completions.get i = some call ∧ call.sender = some d

structure Dispatch.Ok (now d : ℕ) (x : Dispatch) : Prop where
  responders : x.responders.Nodup
  sending : ∀ home ∈ x.sending, home ∈ x.responders ∧ home ∉ x.counted ∧ home ∉ x.delivered
  undisturbed : x.Undisturbed now d
  closed : x.closed = true → x.Exhausted ∨ x.deadline ≤ now
  received : ∀ answer, x.result = some (.ok answer) → answer ∈ x.sent

/-- The responders that a record still waits for. -/
def Dispatch.remaining (x : Dispatch) : ℕ := (x.responders.filter (· ∉ x.counted)).length

structure RecordOk (id : Uuid) (record : PendingHomeEnrollment) (x : Dispatch) : Prop where
  requestId : x.requestId = id
  digest : record.requestDigest = x.requestDigest
  expires : record.expires = x.deadline
  remaining : record.remainingResponders = x.remaining
  free : record.response = true → x.Free

structure CompletionOk (call : Completion) (d : ℕ) (x : Dispatch) : Prop where
  origin : call.origin = some d
  requestId : call.requestId = x.requestId
  digest : call.response.requestDigest = x.requestDigest
  sender : ∀ e ∈ call.sender, e = d ∧ x.Free

structure Inv (s : Sys) : Prop where
  dispatches : ∀ d x, s.dispatches.get d = some x → x.Ok s.now d
  records : ∀ id record, s.pending.lookup id = some record →
    ∃ x, s.dispatches.get record.dispatchId = some x ∧ RecordOk id record x
  completions : ∀ i call, s.completions.get i = some call →
    ∃ d x, s.dispatches.get d = some x ∧ CompletionOk call d x
  taken : ∀ i call id record, s.completions.get i = some call → s.pending.lookup id = some record →
    call.origin = some record.dispatchId → record.response = false
  single : ∀ i j call call' d, s.completions.get i = some call → s.completions.get j = some call' →
    call.sender = some d → call'.sender = some d → i = j

variable {s s' : Sys} {d e i : ℕ} {x : Dispatch} {f : Dispatch → Dispatch} {id : Uuid}
  {record : PendingHomeEnrollment} {call : Completion} {home : String} {now : ℕ}

theorem get_update : (s.update d f).dispatches.get e =
    if e = d then (s.dispatches.get e).map f else s.dispatches.get e := by
  show (s.dispatches.set d _).get e = _
  by_cases he : e = d
  · subst he
    rw [if_pos rfl]
    cases hx : s.dispatches.get e with
    | none =>
      by_cases hlt : e < s.dispatches.next
      · rw [Slots.get_set_of_lt hlt]
      · have hlen : s.dispatches.cells.length ≤ e := Nat.le_of_not_lt hlt
        unfold Slots.get Slots.set
        rw [List.getElem?_eq_none (by rw [List.length_set]; exact hlen)]
        rfl
    | some x => rw [Slots.get_set_self hx]
  · rw [if_neg he, Slots.get_set_ne he]

theorem get_update_self (hx : s.dispatches.get d = some x) :
    (s.update d f).dispatches.get d = some (f x) := by
  rw [get_update, if_pos rfl, hx]
  rfl

theorem get_update_ne (he : e ≠ d) :
    (s.update d f).dispatches.get e = s.dispatches.get e := by
  rw [get_update, if_neg he]

theorem Dispatch.Exhausted.mono (h : x.Exhausted) (hresponders : (f x).responders = x.responders)
    (hcounted : x.counted ⊆ (f x).counted) (hfailed : x.failed ⊆ (f x).failed) :
    (f x).Exhausted := by
  intro home hhome
  rw [hresponders] at hhome
  exact (h home hhome).imp (fun h => hcounted h) fun h => hfailed h

/-- What is the same when a dispatch is updated, for the records and completions. -/
structure Dispatch.Same (x y : Dispatch) : Prop where
  requestId : y.requestId = x.requestId
  digest : y.requestDigest = x.requestDigest
  deadline : y.deadline = x.deadline

/-- An update that uses no sender, or one that nobody holds. -/
theorem Inv.update (h : Inv s) (hx : s.dispatches.get d = some x) (hsame : x.Same (f x))
    (hok : (f x).Ok s.now d) (hfree : (x.Free → (f x).Free) ∨ ¬ s.Held d)
    (hremaining : (f x).remaining = x.remaining ∨
      ∀ id record, s.pending.lookup id = some record → record.dispatchId ≠ d) :
    Inv (s.update d f) := by
  have hself : (s.update d f).dispatches.get d = some (f x) := get_update_self hx
  have hother : ∀ e, e ≠ d → (s.update d f).dispatches.get e = s.dispatches.get e :=
    fun e he => get_update_ne he
  constructor
  · intro e y hy
    by_cases he : e = d
    · subst he
      rw [hself] at hy
      cases hy
      exact hok
    · rw [hother e he] at hy
      exact h.dispatches e y hy
  · intro id record hrecord
    obtain ⟨y, hy, hyok⟩ := h.records id record hrecord
    by_cases he : record.dispatchId = d
    · rw [he, hx] at hy
      cases hy
      refine ⟨f x, by rw [he]; exact hself, ?_⟩
      have hremaining := hremaining.resolve_right fun hnone => hnone id record hrecord he
      refine ⟨hsame.requestId.trans hyok.requestId, hyok.digest.trans hsame.digest.symm,
        hyok.expires.trans hsame.deadline.symm, hyok.remaining.trans hremaining.symm, ?_⟩
      intro hresponse
      rcases hfree with hfree | hheld
      · exact hfree (hyok.free hresponse)
      · exact absurd (.inl ⟨id, record, hrecord, he, hresponse⟩) hheld
    · exact ⟨y, (hother _ he).trans hy, hyok⟩
  · intro i call hcall
    obtain ⟨e, y, hy, hyok⟩ := h.completions i call hcall
    by_cases he : e = d
    · subst he
      rw [hx] at hy
      cases hy
      refine ⟨e, f x, hself, hyok.origin, hyok.requestId.trans hsame.requestId.symm,
        hyok.digest.trans hsame.digest.symm, fun e' he' => ⟨(hyok.sender e' he').1, ?_⟩⟩
      rcases hfree with hfree | hheld
      · exact hfree (hyok.sender e' he').2
      · refine absurd (.inr ⟨i, call, hcall, ?_⟩) hheld
        rw [Option.mem_def.mp he', (hyok.sender e' he').1]
    · exact ⟨e, y, (hother e he).trans hy, hyok⟩
  · exact h.taken
  · exact h.single

/-- A result for a dispatch touches it. -/
theorem Inv.touch (h : Inv s) (hx : s.dispatches.get d = some x) : Inv (s.touch d (some d)) := by
  have hok := h.dispatches d x hx
  apply h.update hx ⟨rfl, rfl, rfl⟩ ?_ (.inl fun hfree => hfree) (.inl rfl)
  refine ⟨hok.responders, hok.sending, ⟨hok.undisturbed.once, hok.undisturbed.digest, ?_,
    hok.undisturbed.refused⟩, hok.closed, hok.received⟩
  intro origin hmem
  rcases List.mem_cons.mp hmem with rfl | hmem
  · rfl
  · exact hok.undisturbed.origin origin hmem

/-- Records may go. -/
theorem Inv.erase (h : Inv s) (id : Uuid) : Inv { s with pending := s.pending.erase id } where
  dispatches := h.dispatches
  records id' record hrecord := h.records id' record (Table.lookup_erase_cases hrecord).2
  completions := h.completions
  taken i call id' record hcall hrecord :=
    h.taken i call id' record hcall (Table.lookup_erase_cases hrecord).2
  single := h.single

/-- So may completions. -/
theorem Inv.drop (h : Inv s) (i : ℕ) :
    Inv { s with completions := s.completions.set i none } where
  dispatches := h.dispatches
  records := h.records
  completions j call hcall := by
    rcases Slots.get_set_cases hcall with ⟨-, hnone, -⟩ | ⟨-, hold⟩
    · cases hnone
    · exact h.completions j call hold
  taken j call id record hcall := by
    rcases Slots.get_set_cases hcall with ⟨-, hnone, -⟩ | ⟨-, hold⟩
    · cases hnone
    · exact h.taken j call id record hold
  single j k call call' d hcall hcall' := by
    rcases Slots.get_set_cases hcall with ⟨-, hnone, -⟩ | ⟨-, hold⟩
    · cases hnone
    rcases Slots.get_set_cases hcall' with ⟨-, hnone, -⟩ | ⟨-, hold'⟩
    · cases hnone
    exact h.single j k call call' d hold hold'

/-- Where a record has the sender, no completion has it. -/
theorem Inv.sender_ne (h : Inv s) (hrecord : s.pending.lookup id = some record)
    (hresponse : record.response = true) :
    ∀ i call, s.completions.get i = some call → call.sender ≠ some record.dispatchId := by
  intro i call hcall hsender
  obtain ⟨d, x, hx, hok⟩ := h.completions i call hcall
  have hd := (hok.sender _ hsender).1
  have horigin := hok.origin
  rw [← hd] at horigin
  rw [h.taken i call id record hcall hrecord horigin] at hresponse
  cases hresponse

/-- When a record with the sender goes, nobody has the sender. -/
theorem Inv.not_held_erase (h : Inv s) (hrecord : s.pending.lookup id = some record)
    (hresponse : record.response = true) :
    ¬ ({ s with pending := s.pending.erase id } : Sys).Held record.dispatchId := by
  intro hheld
  rcases hheld with ⟨id', record', hrecord', hsame, -⟩ | ⟨i, call, hcall, hsender⟩
  · have hold := Table.lookup_erase_cases hrecord'
    obtain ⟨x, hx, hok⟩ := h.records id record hrecord
    obtain ⟨x', hx', hok'⟩ := h.records id' record' hold.2
    rw [hsame, hx] at hx'
    cases hx'
    exact hold.1 (hok'.requestId.symm.trans hok.requestId)
  · exact h.sender_ne hrecord hresponse i call hcall hsender

/-- A record goes whose dispatch can be left without an answer. -/
theorem Inv.removeRecord (h : Inv s) (hrecord : s.pending.lookup id = some record)
    (hlost : ∀ x, s.dispatches.get record.dispatchId = some x → record.response = true →
      x.Exhausted ∨ x.deadline ≤ s.now) : Inv (s.removeRecord id record) := by
  unfold Sys.removeRecord
  dsimp only
  split_ifs with hresponse
  · obtain ⟨x, hx, -⟩ := h.records id record hrecord
    have hok := h.dispatches _ x hx
    have hlost := hlost x hx hresponse
    apply (h.erase id).update hx ⟨rfl, rfl, rfl⟩
    · refine ⟨hok.responders, hok.sending, ?_, fun _ => hlost, hok.received⟩
      exact ⟨hok.undisturbed.once, hok.undisturbed.digest, hok.undisturbed.origin, fun _ => hlost⟩
    · exact .inr (h.not_held_erase hrecord hresponse)
    · exact .inl rfl
  · exact h.erase id

/-- The answer to a dispatch whose sender nobody has any more. -/
theorem Inv.send (h : Inv s) {answer : Answer} (hx : s.dispatches.get d = some x) (hfree : x.Free)
    (hheld : ¬ s.Held d)
    (hdigest : ∀ response ∈ answer.response, response.requestDigest = x.requestDigest)
    (hrefused : answer.accepted = false → x.Exhausted ∨ x.deadline ≤ s.now) :
    Inv (s.send d answer) := by
  have hok := h.dispatches d x hx
  have hsent : x.sent ++ [answer] = [answer] := by rw [hfree.1, List.nil_append]
  apply h.update hx ⟨rfl, rfl, rfl⟩
  rotate_left
  · exact .inr hheld
  · exact .inl rfl
  · refine ⟨hok.responders, hok.sending, ?_, hok.closed, fun a ha =>
      List.mem_append_left _ (hok.received a ha)⟩
    constructor
    · show (x.sent ++ [answer]).length ≤ 1
      rw [hsent]
      exact le_rfl
    · intro a ha
      have ha : a ∈ x.sent ++ [answer] := ha
      rw [hsent, List.mem_singleton] at ha
      subst ha
      exact hdigest
    · exact hok.undisturbed.origin
    · intro hrefusal
      rcases hrefusal with ⟨a, ha, haccepted⟩ | hresult
      · have ha : a ∈ x.sent ++ [answer] := ha
        rw [hsent, List.mem_singleton] at ha
        subst ha
        exact hrefused haccepted
      · exact hok.undisturbed.refused (.inr hresult)

/-- A record takes the place of another. -/
theorem Inv.insert (h : Inv { s with pending := s.pending.erase id })
    (hx : s.dispatches.get record.dispatchId = some x) (hok : RecordOk id record x)
    (htaken : ∀ i call, s.completions.get i = some call → call.origin = some record.dispatchId →
      record.response = false) :
    Inv { s with pending := s.pending.insert id record } where
  dispatches := h.dispatches
  records id' record' hrecord' := by
    rcases Table.lookup_insert_cases hrecord' with ⟨rfl, rfl⟩ | ⟨hne, hold⟩
    · exact ⟨x, hx, hok⟩
    · exact h.records id' record' ((AList.lookup_erase_ne hne).trans hold)
  completions := h.completions
  taken i call id' record' hcall hrecord' horigin := by
    rcases Table.lookup_insert_cases hrecord' with ⟨rfl, rfl⟩ | ⟨hne, hold⟩
    · exact htaken i call hcall horigin
    · exact h.taken i call id' record' hcall ((AList.lookup_erase_ne hne).trans hold) horigin
  single := h.single

/-- Without the record of a dispatch there is no other of it. -/
theorem Inv.ne_of_erase (h : Inv s) (hrecord : s.pending.lookup id = some record) :
    ∀ id' record', (s.pending.erase id).lookup id' = some record' →
      record'.dispatchId ≠ record.dispatchId := by
  intro id' record' hrecord' hsame
  have hold := Table.lookup_erase_cases hrecord'
  obtain ⟨x, hx, hok⟩ := h.records id record hrecord
  obtain ⟨x', hx', hok'⟩ := h.records id' record' hold.2
  rw [hsame, hx] at hx'
  cases hx'
  exact hold.1 (hok'.requestId.symm.trans hok.requestId)

theorem remaining_count (hnodup : x.responders.Nodup) (hhome : home ∈ x.responders)
    (hcounted : home ∉ x.counted) {origins : List (Option ℕ)} :
    ({ x with counted := home :: x.counted, touchedBy := origins } : Dispatch).remaining + 1 =
      x.remaining := by
  have hmem : home ∈ x.responders.filter (· ∉ x.counted) :=
    List.mem_filter.mpr ⟨hhome, decide_eq_true hcounted⟩
  have herase : x.responders.filter (· ∉ home :: x.counted) =
      (x.responders.filter (· ∉ x.counted)).erase home := by
    rw [(hnodup.filter _).erase_eq_filter, List.filter_filter]
    apply List.filter_congr
    intro other _
    by_cases hother : other = home <;> simp [hother]
  have hlength := List.length_erase_of_mem hmem
  have hpos := List.length_pos_of_mem hmem
  unfold Dispatch.remaining
  dsimp only
  rw [herase]
  omega

/-- One responder is counted for the dispatch that it answers. -/
theorem Inv.count (h : Inv s) {counted : PendingHomeEnrollment} {defaultError : Option String}
    (hrecord : s.pending.lookup id = some record) (hx : s.dispatches.get record.dispatchId = some x)
    (hhome : home ∈ x.responders) (hnew : home ∉ x.counted) (hsending : home ∉ x.sending)
    (hid : counted.dispatchId = record.dispatchId)
    (hdigest : counted.requestDigest = record.requestDigest)
    (hexpires : counted.expires = record.expires) (hresponse : counted.response = record.response)
    (hremaining : counted.remainingResponders = record.remainingResponders) :
    Inv ((s.update record.dispatchId fun x => { x with
      counted := home :: x.counted
      touchedBy := some record.dispatchId :: x.touchedBy }).countResponder id counted
        defaultError) := by
  have hok := h.dispatches _ x hx
  obtain ⟨x', hx', hrecordok⟩ := h.records id record hrecord
  rw [hx] at hx'
  cases hx'
  let f : Dispatch → Dispatch := fun x => { x with
    counted := home :: x.counted
    touchedBy := some record.dispatchId :: x.touchedBy }
  have hless : (f x).remaining + 1 = x.remaining := remaining_count hok.responders hhome hnew
  have hmono : x.Exhausted → (f x).Exhausted := fun hall =>
    hall.mono rfl (List.subset_cons_self _ _) (List.Subset.refl _)
  have hfok : (f x).Ok s.now record.dispatchId := by
    refine ⟨hok.responders, ?_, ?_, fun hclosed => (hok.closed hclosed).imp_left hmono,
      hok.received⟩
    · intro other hother
      have hold := hok.sending other hother
      refine ⟨hold.1, ?_, hold.2.2⟩
      intro hcounted
      rcases List.mem_cons.mp hcounted with rfl | hcounted
      · exact hsending hother
      · exact hold.2.1 hcounted
    · refine ⟨hok.undisturbed.once, hok.undisturbed.digest, ?_, ?_⟩
      · intro origin horigin
        rcases List.mem_cons.mp horigin with rfl | horigin
        · rfl
        · exact hok.undisturbed.origin origin horigin
      · intro hrefused
        exact (hok.undisturbed.refused hrefused).imp_left hmono
  have herased : Inv (({ s with pending := s.pending.erase id } : Sys).update record.dispatchId f) :=
    (h.erase id).update hx ⟨rfl, rfl, rfl⟩ hfok (.inl fun hfree => hfree)
      (.inr (h.ne_of_erase hrecord))
  have hfx : (s.update record.dispatchId f).dispatches.get record.dispatchId = some (f x) :=
    get_update_self hx
  show Inv ((s.update record.dispatchId f).countResponder id counted defaultError)
  unfold Sys.countResponder
  dsimp only
  have hcount : counted.remainingResponders - 1 = (f x).remaining := by
    rw [hremaining, hrecordok.remaining]
    omega
  by_cases hlast : counted.remainingResponders - 1 = 0
  · rw [if_pos hlast]
    have hall : (f x).Exhausted := by
      have hnone : ((f x).responders.filter (· ∉ (f x).counted)) = [] :=
        List.eq_nil_of_length_eq_zero (hcount.symm.trans hlast)
      intro other hother
      have hout := List.filter_eq_nil_iff.mp hnone other hother
      exact .inl (not_not.mp fun hne => hout (decide_eq_true hne))
    by_cases hsender : counted.response = true
    · rw [if_pos hsender, hid]
      rw [hresponse] at hsender
      apply herased.send hfx (hrecordok.free hsender) (h.not_held_erase hrecord hsender)
      · intro response hnone
        cases hnone
      · intro _
        exact .inl hall
    · rw [if_neg hsender]
      exact herased
  · rw [if_neg hlast]
    let left : PendingHomeEnrollment :=
      { counted with remainingResponders := counted.remainingResponders - 1 }
    have hget : (s.update record.dispatchId f).dispatches.get left.dispatchId = some (f x) := by
      show (s.update record.dispatchId f).dispatches.get counted.dispatchId = some (f x)
      rw [hid]
      exact hfx
    have hok' : RecordOk id left (f x) :=
      ⟨hrecordok.requestId, hdigest.trans hrecordok.digest, hexpires.trans hrecordok.expires, hcount,
        fun hsender => hrecordok.free (hresponse ▸ hsender)⟩
    have hinsert : Inv { s.update record.dispatchId f with
        pending := (s.update record.dispatchId f).pending.erase id } := herased
    apply hinsert.insert hget hok'
    intro i call hcall horigin
    have horigin : call.origin = some counted.dispatchId := horigin
    rw [hid] at horigin
    show counted.response = false
    rw [hresponse]
    exact h.taken i call id record hcall hrecord horigin

theorem Inv.dispatch (h : Inv s) {homeId digest : String} {eligible : List String} {deadline : ℕ}
    (hs : s.dispatch id homeId digest eligible deadline = some s') : Inv s' := by
  unfold Sys.dispatch at hs
  split_ifs at hs with hrefused
  cases hs
  rw [not_or, not_or, not_not] at hrefused
  have hnone : ∀ x, s.dispatches.get s.dispatches.next ≠ some x := fun x hx =>
    (Slots.lt_next_of_get hx).ne rfl
  constructor
  · intro d x hx
    rw [Slots.get_push] at hx
    split_ifs at hx with hd
    · cases hx
      refine ⟨hrefused.2.1, ?_, ⟨Nat.zero_le _, ?_, ?_, ?_⟩, fun hclosed => (by cases hclosed),
        fun answer hanswer => (by cases hanswer)⟩
      · intro home hhome
        exact ⟨hhome, List.not_mem_nil, List.not_mem_nil⟩
      · intro answer hanswer
        cases hanswer
      · intro origin horigin
        cases horigin
      · intro hrefusal
        rcases hrefusal with ⟨answer, hanswer, -⟩ | ⟨error, herror⟩
        · cases hanswer
        · cases herror
    · exact h.dispatches d x hx
  · intro id' record hrecord
    rcases Table.lookup_insert_cases hrecord with ⟨rfl, rfl⟩ | ⟨-, hold⟩
    · refine ⟨_, by rw [Slots.get_push, if_pos rfl], rfl, rfl, rfl, ?_, fun _ => ⟨rfl, rfl⟩⟩
      unfold Dispatch.remaining
      simp
    · obtain ⟨x, hx, hok⟩ := h.records id' record hold
      exact ⟨x, Slots.get_push_of_some hx, hok⟩
  · intro i call hcall
    obtain ⟨d, x, hx, hok⟩ := h.completions i call hcall
    exact ⟨d, x, Slots.get_push_of_some hx, hok⟩
  · intro i call id' record hcall hrecord horigin
    rcases Table.lookup_insert_cases hrecord with ⟨rfl, rfl⟩ | ⟨-, hold⟩
    · obtain ⟨d, x, hx, hok⟩ := h.completions i call hcall
      have hd : d = s.dispatches.next := Option.some.inj (hok.origin.symm.trans horigin)
      exact absurd (hd ▸ hx) (hnone x)
    · exact h.taken i call id' record hcall hold horigin
  · exact h.single

/-- A submission that is no longer being sent. -/
theorem Inv.unsend (h : Inv s) {delivered : List String} (hx : s.dispatches.get d = some x)
    (hdelivered : ∀ other ∈ delivered, other = home ∨ other ∈ x.delivered)
    (hf : f x = { x with sending := x.sending.filter (· ≠ home), delivered := delivered }) :
    Inv (s.update d f) := by
  have hok := h.dispatches d x hx
  apply h.update hx
  · rw [hf]
    exact ⟨rfl, rfl, rfl⟩
  · rw [hf]
    refine ⟨hok.responders, ?_, ⟨hok.undisturbed.once, hok.undisturbed.digest,
      hok.undisturbed.origin, hok.undisturbed.refused⟩, hok.closed, hok.received⟩
    intro other hother
    obtain ⟨hmem, hne⟩ := List.mem_filter.mp hother
    have hold := hok.sending other hmem
    have hne : other ≠ home := of_decide_eq_true hne
    exact ⟨hold.1, hold.2.1, fun hin => (hdelivered other hin).elim hne hold.2.2⟩
  · rw [hf]
    exact .inl fun hfree => hfree
  · rw [hf]
    exact .inl rfl

theorem Inv.deliver (h : Inv s) (hs : s.deliver d home = some s') : Inv s' := by
  unfold Sys.deliver at hs
  obtain ⟨x, hx, hs⟩ := Option.bind_eq_some_iff.mp hs
  split_ifs at hs
  cases hs
  exact h.unsend hx (fun other hother => List.mem_cons.mp hother) rfl

theorem Inv.sendFails (h : Inv s) {error : String} (hs : s.sendFails d home error = some s') :
    Inv s' := by
  unfold Sys.sendFails at hs
  obtain ⟨x, hx, hs⟩ := Option.bind_eq_some_iff.mp hs
  split_ifs at hs with hwaits
  dsimp only at hs
  let f : Dispatch → Dispatch := fun x => { x with sending := x.sending.filter (· ≠ home) }
  have hunsent : Inv (s.update d f) := h.unsend hx (fun other hother => .inr hother) rfl
  have hfx : (s.update d f).dispatches.get d = some (f x) := get_update_self hx
  have hold := (h.dispatches d x hx).sending home hwaits.1
  cases hrecord : s.pending.lookup x.requestId with
  | none =>
    have hlookup : (s.update d f).pending.lookup x.requestId = none := hrecord
    rw [hlookup] at hs
    cases hs
    exact hunsent
  | some record =>
    have hlookup : (s.update d f).pending.lookup x.requestId = some record := hrecord
    rw [hlookup] at hs
    dsimp only at hs
    split_ifs at hs with hd
    · cases hs
      exact hunsent
    · cases hs
      obtain rfl : record.dispatchId = d := not_not.mp hd
      have hsending : home ∉ (f x).sending := fun hmem =>
        of_decide_eq_true (List.mem_filter.mp hmem).2 rfl
      let failed : PendingHomeEnrollment :=
        { record with lastError := some ("global Home enrollment dispatch failed: " ++ error) }
      have hcount : Inv (((s.update record.dispatchId f).update record.dispatchId fun x => { x with
          counted := home :: x.counted
          touchedBy := some record.dispatchId :: x.touchedBy }).countResponder x.requestId failed
            none) :=
        hunsent.count hlookup hfx hold.1 hold.2.1 hsending rfl rfl rfl rfl rfl
      exact hcount

theorem Inv.settle (h : Inv s) {choose : Dispatch → Option (Except DispatchError Answer)}
    (hchoose : ∀ x result, s.dispatches.get d = some x → choose x = some result →
      (∀ error, result = .error error → x.Exhausted ∨ x.deadline ≤ s.now) ∧
        ∀ answer, result = .ok answer → answer ∈ x.sent)
    (hs : s.settle d choose = some s') : Inv s' := by
  unfold Sys.settle at hs
  obtain ⟨x, hx, hs⟩ := Option.bind_eq_some_iff.mp hs
  split_ifs at hs with hwaits
  obtain ⟨result, hresult, rfl⟩ := Option.map_eq_some_iff.mp hs
  have hok := h.dispatches d x hx
  apply h.update hx ⟨rfl, rfl, rfl⟩ ?_ (.inl fun hfree => hfree) (.inl rfl)
  have hchosen := hchoose x result hx hresult
  refine ⟨hok.responders, hok.sending, ?_, hok.closed, fun answer hanswer =>
    hchosen.2 answer (Option.some.inj hanswer)⟩
  refine ⟨hok.undisturbed.once, hok.undisturbed.digest, hok.undisturbed.origin, ?_⟩
  intro hrefused
  rcases hrefused with hanswer | ⟨error, herror⟩
  · exact hok.undisturbed.refused (.inl hanswer)
  · exact hchosen.1 error (Option.some.inj herror)

theorem Inv.cleanup (h : Inv s) (hs : s.cleanup id = some s') : Inv s' := by
  unfold Sys.cleanup at hs
  obtain ⟨record, hrecord, hs⟩ := Option.bind_eq_some_iff.mp hs
  split_ifs at hs with hlive hresponse
  · cases hs
    obtain ⟨x, hx, hok⟩ := h.records id record hrecord
    have hexpired : x.deadline ≤ s.now := by
      rw [← hok.expires]
      omega
    apply (h.erase id).send hx (hok.free hresponse) (h.not_held_erase hrecord hresponse)
    · intro response hnone
      cases hnone
    · intro _
      exact .inr hexpired
  · cases hs
    exact h.erase id

theorem Inv.tick (h : Inv s) (hnow : s.now ≤ now) : Inv { s with now := now } where
  dispatches d x hx := by
    have hok := h.dispatches d x hx
    have hlater : x.Exhausted ∨ x.deadline ≤ s.now → x.Exhausted ∨ x.deadline ≤ now :=
      Or.imp_right fun hdeadline => hdeadline.trans hnow
    exact ⟨hok.responders, hok.sending, ⟨hok.undisturbed.once, hok.undisturbed.digest,
      hok.undisturbed.origin, fun hrefused => hlater (hok.undisturbed.refused hrefused)⟩,
      fun hclosed => hlater (hok.closed hclosed), hok.received⟩
  records := h.records
  completions := h.completions
  taken := h.taken
  single := h.single

theorem Inv.leave (h : Inv s) (hs : s.leave d = some s') : Inv s' := by
  unfold Sys.leave at hs
  obtain ⟨x, hx, hs⟩ := Option.bind_eq_some_iff.mp hs
  split_ifs at hs with hwaits
  split at hs
  · cases hs
    exact h
  next record hrecord =>
    split_ifs at hs with hd
    · cases hs
      apply h.removeRecord hrecord
      intro y hy hresponse
      obtain ⟨z, hz, hrecordok⟩ := h.records _ record hrecord
      rw [hd, hx] at hy hz
      cases hy
      cases hz
      have hok := h.dispatches d x hx
      cases hresult : x.result with
      | none => exact absurd hresult hwaits
      | some result =>
        cases result with
        | ok answer =>
          have hsent := hok.received answer hresult
          rw [(hrecordok.free hresponse).1] at hsent
          cases hsent
        | error error => exact hok.undisturbed.refused (.inr ⟨error, hresult⟩)
    · cases hs
      exact h

/-- A new completion, with the sender of its dispatch if nobody else has it. -/
theorem Inv.push (h : Inv s) (hx : s.dispatches.get d = some x) (hok : CompletionOk call d x)
    (htaken : ∀ id record, s.pending.lookup id = some record → record.dispatchId = d →
      record.response = false)
    (hsingle : ∀ e, call.sender = some e → ∀ i call', s.completions.get i = some call' →
      call'.sender ≠ some e) : Inv { s with completions := s.completions.push call } where
  dispatches := h.dispatches
  records := h.records
  completions i call' hcall' := by
    rw [Slots.get_push] at hcall'
    split_ifs at hcall' with hi
    · cases hcall'
      exact ⟨d, x, hx, hok⟩
    · exact h.completions i call' hcall'
  taken i call' id record hcall' hrecord horigin := by
    rw [Slots.get_push] at hcall'
    split_ifs at hcall' with hi
    · cases hcall'
      have hd := Option.some.inj (hok.origin.symm.trans horigin)
      exact htaken id record hrecord hd.symm
    · exact h.taken i call' id record hcall' hrecord horigin
  single i j call₁ call₂ e hcall₁ hcall₂ hsender₁ hsender₂ := by
    rw [Slots.get_push] at hcall₁ hcall₂
    split_ifs at hcall₁ hcall₂ with hi hj hj
    · rw [hi, hj]
    · cases hcall₁
      exact absurd hsender₂ (hsingle e hsender₁ j call₂ hcall₂)
    · cases hcall₂
      exact absurd hsender₁ (hsingle e hsender₂ i call₁ hcall₁)
    · exact h.single i j call₁ call₂ e hcall₁ hcall₂ hsender₁ hsender₂

theorem matches_digest {response : HomeResponse} (h : record.matches id response = true) :
    response.requestDigest = record.requestDigest := by
  unfold PendingHomeEnrollment.matches at h
  rw [Bool.and_eq_true, Bool.and_eq_true, Bool.and_eq_true, Bool.and_eq_true] at h
  exact beq_iff_eq.mp h.1.1.2

/-- A response for its own dispatch takes the sender. -/
theorem Inv.beginImport (h : Inv s) {response : HomeResponse}
    (hrecord : s.pending.lookup id = some record) (hx : s.dispatches.get record.dispatchId = some x)
    (hdigest : response.requestDigest = record.requestDigest) :
    Inv { s.touch record.dispatchId (some record.dispatchId) with
      pending := s.pending.insert id { record with response := false }
      completions := s.completions.push {
        home, requestId := id, response, origin := some record.dispatchId
        sender := if record.response then some record.dispatchId else none } } := by
  obtain ⟨x', hx', hrecordok⟩ := h.records id record hrecord
  rw [hx] at hx'
  cases hx'
  let f : Dispatch → Dispatch := fun x => { x with
    touchedBy := some record.dispatchId :: x.touchedBy }
  have hupdated : Inv (s.update record.dispatchId f) := h.touch hx
  have hfx : (s.update record.dispatchId f).dispatches.get record.dispatchId = some (f x) :=
    get_update_self hx
  let taken : PendingHomeEnrollment := { record with response := false }
  have htaken : RecordOk id taken (f x) :=
    ⟨hrecordok.requestId, hrecordok.digest, hrecordok.expires, hrecordok.remaining,
      fun hresponse => by cases hresponse⟩
  have hinserted : Inv { s.update record.dispatchId f with
      pending := (s.update record.dispatchId f).pending.insert id taken } :=
    (hupdated.erase id).insert hfx htaken fun _ _ _ _ => rfl
  have hcompletion : CompletionOk {
      home, requestId := id, response, origin := some record.dispatchId
      sender := if record.response then some record.dispatchId else none } record.dispatchId
      (f x) := by
    refine ⟨rfl, hrecordok.requestId.symm, hdigest.trans hrecordok.digest, ?_⟩
    intro e he
    dsimp only at he
    split_ifs at he with hresponse
    · cases he
      exact ⟨rfl, hrecordok.free hresponse⟩
    · cases he
  apply hinserted.push hfx hcompletion
  · intro id' record' hrecord' hsame
    obtain ⟨y, hy, hyok⟩ := hinserted.records id' record' hrecord'
    rw [hsame] at hy
    cases hfx.symm.trans hy
    have hid : id' = id := hyok.requestId.symm.trans htaken.requestId
    subst hid
    rcases Table.lookup_insert_cases hrecord' with ⟨-, rfl⟩ | ⟨hne, -⟩
    · rfl
    · exact absurd rfl hne
  · intro e he i call hcall
    dsimp only at he
    split_ifs at he with hresponse
    cases he
    exact h.sender_ne hrecord hresponse i call hcall

theorem Inv.complete (h : Inv s) {isGlobalIssuer accepted unreadable : Bool}
    {response : Option HomeResponse} {error : Option String} {origin : Option ℕ}
    (hanswers : s.Answers home origin)
    (hok : s.Apart (.complete home isGlobalIssuer id accepted unreadable response error origin)) :
    Inv (s.complete home isGlobalIssuer id accepted unreadable response error origin) := by
  unfold Sys.complete
  split_ifs with hissuer
  · exact h
  split
  · exact h
  next record hrecord =>
    obtain ⟨x, hx, hrecordok⟩ := h.records id record hrecord
    have hxok := h.dispatches _ x hx
    have hmeets := hok record hrecord (Bool.eq_true_of_not_eq_false hissuer)
    by_cases hexpired : record.expires ≤ s.now
    · rw [if_pos hexpired]
      obtain rfl := hmeets.1 hexpired
      apply (h.touch hx).removeRecord hrecord
      intro y hy _
      obtain ⟨z, hz, hyok⟩ := (h.touch hx).records id record hrecord
      rw [hz] at hy
      cases hy
      exact .inr (hyok.expires ▸ hexpired)
    · rw [if_neg hexpired]
      have hapart := hmeets.2 (by omega)
      cases response with
      | none =>
        dsimp only at hapart ⊢
        obtain ⟨horigin, hhome⟩ := hapart.2 rfl
        have hhome := hhome x hx
        subst horigin
        obtain ⟨y, hy, hdelivered⟩ := hanswers
        rw [hx] at hy
        cases hy
        have hsending : home ∉ x.sending := fun hmem => (hxok.sending home hmem).2.2 hdelivered
        exact h.count hrecord hx hhome.1 hhome.2 hsending rfl rfl rfl rfl rfl
      | some response =>
        dsimp only at hapart ⊢
        by_cases hbad : accepted = false ∨ unreadable = true ∨ record.matches id response = false
        · rw [if_pos hbad]
          exact h
        · rw [if_neg hbad]
          rw [not_or, not_or, Bool.not_eq_false, Bool.not_eq_true, Bool.not_eq_false] at hbad
          obtain rfl := hapart.1 response rfl (by rw [hbad.1, hbad.2.1]; rfl) hbad.2.2
          exact h.beginImport hrecord hx (matches_digest hbad.2.2)

theorem Inv.imported (h : Inv s) (hs : s.imported i = some s') : Inv s' := by
  unfold Sys.imported at hs
  obtain ⟨call, hcall, rfl⟩ := Option.map_eq_some_iff.mp hs
  have hold : ∀ j call', (s.completions.set i (some { call with imported := true })).get j =
      some call' → ∃ old, s.completions.get j = some old ∧ call'.requestId = old.requestId ∧
        call'.sender = old.sender ∧ call'.response = old.response ∧ call'.origin = old.origin := by
    intro j call' hcall'
    rcases Slots.get_set_cases hcall' with ⟨rfl, heq, -⟩ | ⟨-, hthere⟩
    · cases heq
      exact ⟨call, hcall, rfl, rfl, rfl, rfl⟩
    · exact ⟨call', hthere, rfl, rfl, rfl, rfl⟩
  constructor
  · exact h.dispatches
  · exact h.records
  · intro j call' hcall'
    obtain ⟨old, hthere, hrequest, hsender, hresponse, horigin⟩ := hold j call' hcall'
    obtain ⟨d, x, hx, hok⟩ := h.completions j old hthere
    refine ⟨d, x, hx, horigin.trans hok.origin, hrequest.trans hok.requestId, ?_, ?_⟩
    · rw [hresponse]
      exact hok.digest
    · rw [hsender]
      exact hok.sender
  · intro j call' id record hcall' hrecord horigin'
    obtain ⟨old, hthere, -, -, -, horigin⟩ := hold j call' hcall'
    exact h.taken j old id record hthere hrecord (horigin.symm.trans horigin')
  · intro j k call₁ call₂ e hcall₁ hcall₂ hsender₁ hsender₂
    obtain ⟨old₁, hthere₁, -, hsame₁, -⟩ := hold j call₁ hcall₁
    obtain ⟨old₂, hthere₂, -, hsame₂, -⟩ := hold k call₂ hcall₂
    exact h.single j k old₁ old₂ e hthere₁ hthere₂ (hsame₁.symm.trans hsender₁)
      (hsame₂.symm.trans hsender₂)

/-- When the completion with the sender ends, nobody has the sender. -/
theorem Inv.not_held_drop (h : Inv s) (hcall : s.completions.get i = some call)
    (hsender : call.sender = some d) :
    ¬ ({ s with completions := s.completions.set i none } : Sys).Held d := by
  intro hheld
  rcases hheld with ⟨id, record, hrecord, hd, hresponse⟩ | ⟨j, call', hcall', hsender'⟩
  · obtain ⟨e, x, hx, hok⟩ := h.completions i call hcall
    have he := (hok.sender d hsender).1
    have horigin : call.origin = some record.dispatchId := by rw [hok.origin, hd, he]
    rw [h.taken i call id record hcall hrecord horigin] at hresponse
    cases hresponse
  · rcases Slots.get_set_cases hcall' with ⟨-, hnone, -⟩ | ⟨hne, hold⟩
    · cases hnone
    · exact hne (h.single j i call' call d hold hcall hsender' hsender)

/-- The response of one responder less can be imported. -/
theorem Inv.fail (h : Inv s) (hx : s.dispatches.get d = some x) (home : String) :
    Inv (s.update d (·.fail home)) := by
  have hok := h.dispatches d x hx
  let f : Dispatch → Dispatch := fun x => x.fail home
  have hmono : x.Exhausted → (f x).Exhausted := fun hall =>
    hall.mono rfl (List.Subset.refl _) (List.subset_cons_self _ _)
  apply h.update hx ⟨rfl, rfl, rfl⟩ ?_ (.inl fun hfree => hfree) (.inl rfl)
  exact ⟨hok.responders, hok.sending, ⟨hok.undisturbed.once, hok.undisturbed.digest,
    hok.undisturbed.origin, fun hrefused => (hok.undisturbed.refused hrefused).imp_left hmono⟩,
    fun hclosed => (hok.closed hclosed).imp_left hmono, hok.received⟩

theorem Inv.importFails (h : Inv s) (hs : s.importFails i = some s')
    (hapart : s.Apart (.importFails i)) : Inv s' := by
  unfold Sys.importFails at hs
  obtain ⟨call, hcall, hs⟩ := Option.bind_eq_some_iff.mp hs
  split_ifs at hs with himported
  obtain ⟨d, x, hx, hcallok⟩ := h.completions i call hcall
  simp only [hcallok.origin] at hs
  have hdrop : Inv { s with completions := s.completions.set i none } := h.drop i
  have hfailed := hdrop.fail hx call.home
  cases hsender : call.sender with
  | none =>
    rw [hsender] at hs
    cases hs
    exact hfailed
  | some e =>
    rw [hsender] at hs
    cases hs
    obtain rfl : e = d := (hcallok.sender e hsender).1
    have hlost := hapart call hcall e hsender x hx
    have hfx : (({ s with completions := s.completions.set i none } : Sys).update e
        (·.fail call.home)).dispatches.get e = some (x.fail call.home) := get_update_self hx
    have hok := hfailed.dispatches e _ hfx
    apply hfailed.update hfx ⟨rfl, rfl, rfl⟩ ?_ (.inr (h.not_held_drop hcall hsender)) (.inl rfl)
    exact ⟨hok.responders, hok.sending, ⟨hok.undisturbed.once, hok.undisturbed.digest,
      hok.undisturbed.origin, fun _ => hlost⟩, fun _ => hlost, hok.received⟩

/-- The record that a completion removes has lost its sender to a completion. -/
theorem Inv.finishRecord (h : Inv s) (hcall : s.completions.get i = some call)
    (hrecord : s.pending.lookup call.requestId = some record)
    (horigin : call.origin = some record.dispatchId) :
    let touched : Sys :=
      ({ s with completions := s.completions.set i none } : Sys).touch record.dispatchId call.origin
    touched.removeRecord call.requestId record =
      { touched with pending := s.pending.erase call.requestId } ∧
    Inv { touched with pending := s.pending.erase call.requestId } := by
  have hresponse := h.taken i call _ record hcall hrecord horigin
  obtain ⟨x, hx, -⟩ := h.records _ record hrecord
  have hdrop : Inv { s with completions := s.completions.set i none } := h.drop i
  constructor
  · unfold Sys.removeRecord
    dsimp only
    rw [if_neg (by rw [hresponse]; exact Bool.false_ne_true)]
    rfl
  · rw [horigin]
    exact (hdrop.touch hx).erase call.requestId

theorem Inv.finish (h : Inv s) (hs : s.finish i = some s') (hapart : s.Apart (.finish i)) :
    Inv s' := by
  unfold Sys.finish at hs
  obtain ⟨call, hcall, hs⟩ := Option.bind_eq_some_iff.mp hs
  split_ifs at hs with himported
  dsimp only at hs
  obtain ⟨d, x, hx, hcallok⟩ := h.completions i call hcall
  have hnext : ∃ next, Inv next ∧ (∀ d, call.sender = some d → ¬ next.Held d) ∧
      (∃ y, next.dispatches.get d = some y ∧ y.sent = x.sent ∧ y.closed = x.closed ∧
        y.requestDigest = x.requestDigest) ∧
      (match call.sender with
        | none => some next
        | some d => some (next.send d ⟨true, some call.response, none⟩)) = some s' := by
    have hheld := fun d (hsender : call.sender = some d) => h.not_held_drop hcall hsender
    cases hrecord : s.pending.lookup call.requestId with
    | none =>
      rw [hrecord] at hs
      exact ⟨_, h.drop i, hheld, ⟨x, hx, rfl, rfl, rfl⟩, hs⟩
    | some record =>
      rw [hrecord] at hs
      have hfinish := h.finishRecord hcall hrecord (hapart call hcall record hrecord)
      dsimp only at hs hfinish
      rw [hfinish.1] at hs
      refine ⟨_, hfinish.2, ?_, ?_, hs⟩
      · intro d hsender hnext
        rcases hnext with ⟨id, record', hrecord', hsame⟩ | hcompletion
        · exact hheld d hsender (.inl ⟨id, record', (Table.lookup_erase_cases hrecord').2, hsame⟩)
        · exact hheld d hsender (.inr hcompletion)
      · by_cases hd : d = record.dispatchId
        · refine ⟨{ x with touchedBy := call.origin :: x.touchedBy }, ?_, rfl, rfl, rfl⟩
          subst hd
          exact get_update_self (s := { s with completions := s.completions.set i none }) hx
        · refine ⟨x, ?_, rfl, rfl, rfl⟩
          exact (get_update_ne hd).trans hx
  obtain ⟨next, hinv, hheld, ⟨y, hy, hsent, hclosed, hdigest⟩, hs⟩ := hnext
  cases hsender : call.sender with
  | none =>
    rw [hsender] at hs
    cases hs
    exact hinv
  | some e =>
    rw [hsender] at hs
    cases hs
    obtain ⟨rfl, hfree⟩ := hcallok.sender e hsender
    apply hinv.send hy ⟨hsent.trans hfree.1, hclosed.trans hfree.2⟩ (hheld e hsender)
    · intro response hresponse
      cases hresponse
      rw [hdigest]
      exact hcallok.digest
    · intro hrefused
      cases hrefused

/-- What one step does, as long as results are for the dispatch whose record they meet. -/
theorem Inv.step {a : Action} (h : Inv s) (hapart : s.Apart a) (hs : s.step a = some s') :
    Inv s' := by
  cases a with
  | dispatch requestId homeId digest eligible deadline => exact h.dispatch hs
  | deliver d home => exact h.deliver hs
  | sendFails d home error => exact h.sendFails hs
  | complete home isGlobalIssuer requestId accepted unreadable response error origin =>
    unfold Sys.step at hs
    dsimp only at hs
    split_ifs at hs with hanswers
    cases hs
    exact h.complete hanswers hapart
  | imported i => exact h.imported hs
  | importFails i => exact h.importFails hs hapart
  | finish i => exact h.finish hs hapart
  | receive d =>
    refine h.settle ?_ hs
    intro x result hx hresult
    obtain ⟨answer, hanswer, rfl⟩ := Option.map_eq_some_iff.mp hresult
    refine ⟨fun error herror => (by cases herror), fun answer' hanswer' => ?_⟩
    cases hanswer'
    exact List.mem_of_mem_head? hanswer
  | closedChannel d =>
    refine h.settle ?_ hs
    intro x result hx hresult
    split_ifs at hresult with hclosed
    cases hresult
    exact ⟨fun _ _ => (h.dispatches d x hx).closed hclosed, fun answer hanswer => by cases hanswer⟩
  | timeout d =>
    refine h.settle ?_ hs
    intro x result hx hresult
    split_ifs at hresult with hdeadline
    cases hresult
    exact ⟨fun _ _ => .inr hdeadline, fun answer hanswer => by cases hanswer⟩
  | leave d => exact h.leave hs
  | cleanup requestId => exact h.cleanup hs
  | tick now =>
    unfold Sys.step at hs
    dsimp only at hs
    split_ifs at hs with hnow
    cases hs
    exact h.tick (Nat.le_of_not_lt hnow)

theorem inv_start : Inv {} where
  dispatches d x hx := by cases hx
  records id record hrecord := by cases hrecord
  completions i call hcall := by cases hcall
  taken i call id record hcall := by cases hcall
  single i j call call' d hcall := by cases hcall

/-- In every run in which results count for the dispatch that they answer, the dispatches do not
disturb each other. -/
theorem undisturbed_of_apart (h : machine.ReachableWhere Sys.Apart s) :
    ∀ d x, s.dispatches.get d = some x → x.Undisturbed s.now d := by
  have hinv : Inv s := h.invariant inv_start fun t a t' _ hinv hapart hs => hinv.step hapart hs
  intro d x hx
  exact (hinv.dispatches d x hx).undisturbed

/-- A request of `new-home` that two issuers approve, one of them at once. -/
def approvedResponse : HomeResponse := ⟨7, "new-home", "digest", "new-home", true⟩

/-- The request is asked for again after its approval, and then refused by both issuers. -/
theorem undisturbed_of_apart_retry : ∃ s, machine.ReachableWhere Sys.Apart s ∧ s.now = 30 ∧
    ∀ d x, s.dispatches.get d = some x → x.Undisturbed s.now d := by
  have hrun : (machine.execWhere Sys.Apart [.dispatch 7 "new-home" "digest" ["home-1", "home-2"] 20,
      .deliver 0 "home-1", .deliver 0 "home-2",
      .complete "home-1" true 7 true false none none (some 0),
      .complete "home-2" true 7 true false (some approvedResponse) none (some 0),
      .imported 0, .finish 0, .receive 0, .leave 0, .tick 30,
      .dispatch 7 "new-home" "digest" ["home-1", "home-2"] 50, .deliver 1 "home-1",
      .sendFails 1 "home-2" "queue closed",
      .complete "home-1" true 7 false false none (some "used") (some 1), .receive 1,
      .leave 1]).map (·.now) = some 30 := by
    decide
  obtain ⟨s, hexec, hnow⟩ := Option.map_eq_some_iff.mp hrun
  have hreach := Machine.reachableWhere_of_execWhere hexec
  exact ⟨s, hreach, hnow, undisturbed_of_apart hreach⟩

/-- The first dispatch times out. The refusals of `home-1` for it and for the second dispatch both
count for the second one, which is refused although `home-2` has yet to answer. -/
theorem not_undisturbed_of_reachable :
    ¬ ∀ s, machine.Reachable s → ∀ d x, s.dispatches.get d = some x → x.Undisturbed s.now d := by
  intro h
  have hrun : (machine.exec [.dispatch 7 "new-home" "digest" ["home-1", "home-2"] 20,
      .deliver 0 "home-1", .deliver 0 "home-2", .tick 20, .timeout 0, .leave 0,
      .dispatch 7 "new-home" "digest" ["home-1", "home-2"] 40,
      .deliver 1 "home-1", .deliver 1 "home-2",
      .complete "home-1" true 7 false false none (some "busy") (some 0),
      .complete "home-1" true 7 false false none (some "busy") (some 1)]).bind
      (fun s => (s.dispatches.get 1).map fun x =>
        (s.now, x.deadline, x.sent.map (·.accepted), x.responders, x.counted ++ x.failed)) =
      some (20, 40, [false], ["home-1", "home-2"], ["home-1", "home-1"]) := by
    decide
  obtain ⟨s, hexec, hs⟩ := Option.bind_eq_some_iff.mp hrun
  obtain ⟨x, hx, hfields⟩ := Option.map_eq_some_iff.mp hs
  simp only [Prod.mk.injEq] at hfields
  obtain ⟨hnow, hdeadline, hsent, hresponders, hcounted⟩ := hfields
  have hundisturbed := h s (Machine.reachable_of_exec hexec) 1 x hx
  have hrefused : x.Refused := by
    have hfalse : false ∈ x.sent.map (·.accepted) := by
      rw [hsent]
      simp
    exact .inl (List.mem_map.mp hfalse)
  rcases hundisturbed.refused hrefused with hexhausted | hexpired
  · have hhome : "home-2" ∈ x.responders := by
      rw [hresponders]
      decide
    have hanswered := List.mem_append.mpr (hexhausted "home-2" hhome)
    rw [hcounted] at hanswered
    revert hanswered
    decide
  · rw [hdeadline, hnow] at hexpired
    omega

end FlowSplice.Server.HomeEnrollments
