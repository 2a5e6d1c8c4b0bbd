import FlowSplice.Frame.RoundTrip

/-! The pump of a carrier: `run_data_carrier` of `flowsplice-core/src/carrier.rs`. Its branches may be
taken in any order; a write suspends them all, and a read future is dropped whenever another branch is
taken. -/
namespace FlowSplice.Frame

def isHeartbeat : DataFrame → Bool
  | .ping _ => true
  | .pong _ => true
  | _ => false

/-- The frames among the results of reads that are for the flows. -/
def business (returned : List (Except IoError DataFrame)) : List DataFrame :=
  returned.filterMap fun result =>
    match result with
    | .ok frame => if isHeartbeat frame then none else some frame
    | .error _ => none

namespace Carrier

inductive CarrierError where
  | io (error : IoError)
  | anyhow (message : String)
deriving DecidableEq, Repr

/-- Which branch writes. -/
inductive Origin where
  | queue
  | heartbeat
deriving DecidableEq, Repr

/-- The loop is in its `select!`, in a write of which `rest` is not on the wire yet, or has
returned. -/
inductive Phase where
  | select
  | writing (rest : Bytes)
  | returned (result : Except CarrierError Unit)
deriving DecidableEq

/-- The arguments of a call. The limit is `DATA_FRAME_LIMIT`. -/
structure Config (ε : Type*) where
  serde : SerdeJson
  limit : ℕ
  codec : DataFrameCodec
  wrap : DataFrame → ε
  timeoutPeriod : ℕ

/-- A call, with its ends of the queues and of the stream. `queued` logs the frames that were put into
the outgoing queue, `taken` those that the call took, and `written` those whose bytes are on the wire,
each with the branch that wrote it; `current` is the frame that is being written. -/
structure Sys (ε : Type*) where
  session : Session
  phase : Phase := .select
  pending : Option ε := none
  events : List ε := []
  outgoing : List DataFrame := []
  closed : Bool := false
  wire : Bytes := []
  nonce : ℕ := 0
  now : ℕ := 0
  lastReceived : ℕ := 0
  queued : List DataFrame := []
  taken : List DataFrame := []
  written : List (Origin × DataFrame) := []
  current : Option (Origin × DataFrame) := none

/-- The queues, the stream and the clock may do anything at any time. A permit is granted, or refused
because the receiver is closed; `read` is what happens to the read of the next frame. -/
inductive Action where
  | clock (now : ℕ)
  | push (frame : DataFrame)
  | closeOutgoing
  | permit (granted : Bool)
  | recv
  | read (action : Session.Action)
  | tick
  | transfer (count : ℕ)
  | flush
  | failWrite (error : IoError)

namespace Sys
variable {ε : Type*}

/-- The select drops the read future when it takes another branch. -/
def dropRead (s : Sys ε) : Sys ε := { s with session := { s.session with reading := none } }

def finish (s : Sys ε) (result : Except CarrierError Unit) : Sys ε :=
  { s.dropRead with phase := .returned result }

/-- `write_data_frame` up to its first await. -/
def startWrite (config : Config ε) (s : Sys ε) (origin : Origin) (frame : DataFrame) : Sys ε :=
  match writeDataFrame config.serde config.limit config.codec frame with
  | .error error => s.finish (.error (.io error))
  | .ok bytes => { s.dropRead with phase := .writing bytes, current := some (origin, frame) }

/-- The handler of a read that has returned. -/
def receive (config : Config ε) (s : Sys ε) : Except IoError DataFrame → Sys ε
  | .error error => s.finish (.error (.io error))
  | .ok frame =>
    let s := { s with lastReceived := s.now }
    match frame with
    | .ping nonce => s.startWrite config .heartbeat (.pong nonce)
    | .pong _ => s
    | frame => { s with pending := some (config.wrap frame) }

def permit (s : Sys ε) (granted : Bool) : Option (Sys ε) :=
  match s.phase, s.pending with
  | .select, some event =>
    if granted then some { s.dropRead with pending := none, events := s.events ++ [event] }
    else some (s.finish (.error (.anyhow "carrier flow event receiver closed")))
  | _, _ => none

def recv (config : Config ε) (s : Sys ε) : Option (Sys ε) :=
  match s.phase, s.outgoing with
  | .select, frame :: rest =>
    some ({ s with outgoing := rest, taken := s.taken ++ [frame] }.startWrite config .queue frame)
  | .select, [] => if s.closed then some (s.finish (.ok ())) else none
  | _, _ => none

def read (config : Config ε) (s : Sys ε) (action : Session.Action) : Option (Sys ε) :=
  match s.phase, s.pending, action with
  | _, _, .cancel => none
  | .select, none, action =>
    (Session.step config.serde s.session action).map fun session =>
      match session.reading, session.returned.getLast? with
      | none, some result => { s with session := session }.receive config result
      | _, _ => { s with session := session }
  | _, _, _ => none

def tick (config : Config ε) (s : Sys ε) : Option (Sys ε) :=
  match s.phase with
  | .select =>
    if config.timeoutPeriod < s.now - s.lastReceived then
      if s.pending.isSome then
        some (s.finish (.error
          (.anyhow "carrier receive timed out while flow event delivery was pending")))
      else
        some (s.finish (.error (.anyhow "carrier heartbeat timed out")))
    else
      let nonce := (s.nonce + 1) % 2 ^ 64
      some ({ s with nonce := nonce }.startWrite config .heartbeat (.ping nonce))
  | _ => none

/-- The transport takes bytes. -/
def transfer (s : Sys ε) (count : ℕ) : Option (Sys ε) :=
  match s.phase with
  | .writing rest =>
    if 0 < count ∧ count ≤ rest.length then
      let s := { s with wire := s.wire ++ rest.take count, phase := .writing (rest.drop count) }
      if rest.drop count = [] then
        some { s with written := s.written ++ s.current.toList, current := none }
      else some s
    else none
  | _ => none

def flush (s : Sys ε) : Option (Sys ε) :=
  match s.phase with
  | .writing [] => some { s with phase := .select }
  | _ => none

/-- The write fails, or takes longer than it may. -/
def failWrite (s : Sys ε) (error : IoError) : Option (Sys ε) :=
  match s.phase with
  | .writing _ => some (s.finish (.error (.io error)))
  | _ => none

def step (config : Config ε) (s : Sys ε) : Action → Option (Sys ε)
  | .clock now => some { s with now := now }
  | .push frame =>
    if s.closed then none
    else some { s with outgoing := s.outgoing ++ [frame], queued := s.queued ++ [frame] }
  | .closeOutgoing => some { s with closed := true }
  | .permit granted => s.permit granted
  | .recv => s.recv config
  | .read action => s.read config action
  | .tick => s.tick config
  | .transfer count => s.transfer count
  | .flush => s.flush
  | .failWrite error => s.failWrite error

end Sys

/-- A call on a stream of these bytes. -/
def machine {ε : Type*} (config : Config ε) (stream : Bytes) : Machine (Sys ε) Action where
  start :=
    { session := { reader := ⟨.new config.limit, config.codec⟩, reading := none,
                   input := stream, returned := [] } }
  step := Sys.step config

variable {ε : Type*} {config : Config ε} {s s' : Sys ε} {stream : Bytes}

/-! What one step does to the frames that come in. -/

theorem business_append_error (returned : List (Except IoError DataFrame)) (error : IoError) :
    business (returned ++ [.error error]) = business returned := by
  simp [business]

theorem business_append_ok (returned : List (Except IoError DataFrame)) (frame : DataFrame) :
    business (returned ++ [.ok frame]) =
      business returned ++ if isHeartbeat frame then [] else [frame] := by
  unfold business
  rw [List.filterMap_append]
  cases hheartbeat : isHeartbeat frame <;> simp [hheartbeat]

/-- Nothing comes in, and nothing goes out to the events; at most the read future is dropped. -/
structure Keeps (s s' : Sys ε) : Prop where
  events : s'.events = s.events
  pending : s'.pending = s.pending
  session : s'.session = s.session ∨ s'.session = { s.session with reading := none }

theorem keeps_finish (s : Sys ε) (result : Except CarrierError Unit) : Keeps s (s.finish result) :=
  ⟨rfl, rfl, .inr rfl⟩

theorem keeps_startWrite (config : Config ε) (s : Sys ε) (origin : Origin) (frame : DataFrame) :
    Keeps s (s.startWrite config origin frame) := by
  unfold Sys.startWrite
  split
  · exact keeps_finish s _
  · exact ⟨rfl, rfl, .inr rfl⟩

/-- The frame that a result of a read leaves for the events. -/
def eventOf (config : Config ε) : Except IoError DataFrame → Option ε
  | .ok frame => if isHeartbeat frame then none else some (config.wrap frame)
  | .error _ => none

theorem receive_inbound (config : Config ε) (s : Sys ε) (hpending : s.pending = none)
    (result : Except IoError DataFrame) :
    (s.receive config result).events = s.events ∧
      (s.receive config result).pending = eventOf config result ∧
      ((s.receive config result).session = s.session ∨
        (s.receive config result).session = { s.session with reading := none }) ∧
      (∀ error, result = .error error → ∃ result', (s.receive config result).phase =
        .returned result') := by
  cases result with
  | error error => exact ⟨rfl, hpending, .inr rfl, fun _ _ => ⟨_, rfl⟩⟩
  | ok frame =>
    cases frame with
    | ping nonce =>
      have hkeeps := keeps_startWrite config { s with lastReceived := s.now } .heartbeat (.pong nonce)
      exact ⟨hkeeps.events, hkeeps.pending.trans hpending, hkeeps.session, fun _ h => by cases h⟩
    | pong nonce => exact ⟨rfl, hpending, .inl rfl, fun _ h => by cases h⟩
    | _ => exact ⟨rfl, rfl, .inl rfl, fun _ h => by cases h⟩

/-- A read that goes on has returned nothing new, and one that is over has one more result. -/
theorem step_returned {serde : SerdeJson} {session session' : Session} {action : Session.Action}
    (h : Session.step serde session action = some session') :
    session'.returned = session.returned ∧ (session'.reading = none → action = .cancel) ∨
      session'.reading = none ∧ ∃ result, session'.returned = session.returned ++ [result] := by
  have hadvance : ∀ (session : Session) (code : ReadPayload),
      (session.advance serde code).returned = session.returned ∧
        ((session.advance serde code).reading = none → action = .cancel) ∨
      (session.advance serde code).reading = none ∧
        ∃ result, (session.advance serde code).returned = session.returned ++ [result] := by
    intro session code
    cases code with
    | pending inner place => exact .inl ⟨rfl, fun h => by cases h⟩
    | ready inner payload => exact .inr ⟨rfl, _, rfl⟩
    | failed inner error => exact .inr ⟨rfl, _, rfl⟩
  cases action with
  | read =>
    simp only [Session.step] at h
    split at h
    · rw [← Option.some.inj h]
      exact hadvance _ _
    · cases h
  | chunk count =>
    obtain ⟨place, -, -, -, -, rfl⟩ := Session.chunk_ok h
    exact hadvance { session with input := session.input.drop count } _
  | cancel =>
    rw [← Option.some.inj h]
    exact .inl ⟨rfl, fun _ => rfl⟩
  | close =>
    simp only [Session.step] at h
    split at h
    · cases h
    · split_ifs at h
      rw [← Option.some.inj h]
      exact hadvance _ _
  | fail error =>
    simp only [Session.step] at h
    split at h
    · cases h
    · rw [← Option.some.inj h]
      exact hadvance _ _

def Running (s : Sys ε) : Prop := ∀ result, s.phase ≠ .returned result

/-- What a step does: nothing to the frames that come in, an event is delivered, or a read goes on or
returns. -/
inductive Inbound (config : Config ε) (s s' : Sys ε) : Prop
  | keeps (h : Keeps s s')
  | delivered (event : ε) (hpending : s.pending = some event) (hnone : s'.pending = none)
      (hevents : s'.events = s.events ++ [event])
      (hsession : s'.session = { s.session with reading := none })
  | reads (action : Session.Action) (session : Session) (hrunning : Running s)
      (hpending : s.pending = none)
      (hstep : Session.step config.serde s.session action = some session)
      (hreturned : session.returned = s.session.returned) (hevents : s'.events = s.events)
      (hnone : s'.pending = none) (hsession : s'.session = session)
  | received (action : Session.Action) (session : Session) (result : Except IoError DataFrame)
      (hrunning : Running s) (hpending : s.pending = none)
      (hstep : Session.step config.serde s.session action = some session)
      (hreturned : session.returned = s.session.returned ++ [result])
      (hevents : s'.events = s.events) (hevent : s'.pending = eventOf config result)
      (hsession : s'.session = session ∨ s'.session = { session with reading := none })
      (herror : ∀ error, result = .error error → ∃ result', s'.phase = .returned result')

theorem read_inbound {action : Session.Action} (h : s.read config action = some s') :
    Inbound config s s' := by
  unfold Sys.read at h
  split at h
  · cases h
  · rename_i hphase hpending hne
    have hrunning : Running s := fun result heq => by rw [hphase] at heq; cases heq
    obtain ⟨session, hstep, rfl⟩ := Option.map_eq_some_iff.mp h
    rcases step_returned hstep with ⟨hreturned, hreading⟩ | ⟨hnone, result, hreturned⟩
    · have hsome : session.reading ≠ none := fun hnone => hne (hreading hnone)
      split
      · rename_i hnone _
        exact absurd hnone hsome
      · exact .reads _ session hrunning hpending hstep hreturned rfl hpending rfl
    · have hlast : session.returned.getLast? = some result := by simp [hreturned]
      rw [hnone, hlast]
      obtain ⟨hevents, hevent, hsession, herror⟩ :=
        receive_inbound config { s with session := session } hpending result
      exact .received _ session result hrunning hpending hstep hreturned hevents hevent hsession herror
  · cases h

theorem step_inbound {a : Action} (h : s.step config a = some s') : Inbound config s s' := by
  cases a with
  | clock now =>
    rw [← Option.some.inj h]
    exact .keeps ⟨rfl, rfl, .inl rfl⟩
  | push frame =>
    simp only [Sys.step] at h
    split_ifs at h
    rw [← Option.some.inj h]
    exact .keeps ⟨rfl, rfl, .inl rfl⟩
  | closeOutgoing =>
    rw [← Option.some.inj h]
    exact .keeps ⟨rfl, rfl, .inl rfl⟩
  | permit granted =>
    simp only [Sys.step, Sys.permit] at h
    split at h
    · rename_i event _ hpending
      split_ifs at h
      · rw [← Option.some.inj h]
        exact .delivered event hpending rfl rfl rfl
      · rw [← Option.some.inj h]
        exact .keeps (keeps_finish s _)
    · cases h
  | recv =>
    simp only [Sys.step, Sys.recv] at h
    split at h
    · rename_i frame rest _ _
      rw [← Option.some.inj h]
      have hkeeps := keeps_startWrite config
        { s with outgoing := rest, taken := s.taken ++ [frame] } .queue frame
      exact .keeps ⟨hkeeps.events, hkeeps.pending, hkeeps.session⟩
    · split_ifs at h
      rw [← Option.some.inj h]
      exact .keeps (keeps_finish s _)
    · cases h
  | read action => exact read_inbound h
  | tick =>
    simp only [Sys.step, Sys.tick] at h
    split at h
    · split_ifs at h
      · rw [← Option.some.inj h]
        exact .keeps (keeps_finish s _)
      · rw [← Option.some.inj h]
        exact .keeps (keeps_finish s _)
      · rw [← Option.some.inj h]
        have hkeeps := keeps_startWrite config { s with nonce := (s.nonce + 1) % 2 ^ 64 } .heartbeat
          (.ping ((s.nonce + 1) % 2 ^ 64))
        exact .keeps ⟨hkeeps.events, hkeeps.pending, hkeeps.session⟩
    · cases h
  | transfer count =>
    simp only [Sys.step, Sys.transfer] at h
    split at h
    · split_ifs at h
      · rw [← Option.some.inj h]
        exact .keeps ⟨rfl, rfl, .inl rfl⟩
      · rw [← Option.some.inj h]
        exact .keeps ⟨rfl, rfl, .inl rfl⟩
    · cases h
  | flush =>
    simp only [Sys.step, Sys.flush] at h
    split at h
    · rw [← Option.some.inj h]
      exact .keeps ⟨rfl, rfl, .inl rfl⟩
    · cases h
  | failWrite error =>
    simp only [Sys.step, Sys.failWrite] at h
    split at h
    · rw [← Option.some.inj h]
      exact .keeps (keeps_finish s _)
    · cases h

/-- A call that has returned stays so. -/
theorem step_returned_phase {a : Action} {result : Except CarrierError Unit}
    (h : s.step config a = some s') (hphase : s.phase = .returned result) :
    s'.phase = .returned result := by
  cases a with
  | clock now =>
    rw [← Option.some.inj h]
    exact hphase
  | push frame =>
    simp only [Sys.step] at h
    split_ifs at h
    rw [← Option.some.inj h]
    exact hphase
  | closeOutgoing =>
    rw [← Option.some.inj h]
    exact hphase
  | permit granted => simp [Sys.step, Sys.permit, hphase] at h
  | recv => simp [Sys.step, Sys.recv, hphase] at h
  | read action => cases action <;> simp [Sys.step, Sys.read, hphase] at h
  | tick => simp [Sys.step, Sys.tick, hphase] at h
  | transfer count => simp [Sys.step, Sys.transfer, hphase] at h
  | flush => simp [Sys.step, Sys.flush, hphase] at h
  | failWrite error => simp [Sys.step, Sys.failWrite, hphase] at h

theorem Running.before {a : Action} (h : s.step config a = some s') (hrunning : Running s') :
    Running s :=
  fun result hphase => hrunning result (step_returned_phase h hphase)

/-- What was read for the flows was delivered, but for the one event that waits for its permit. -/
def Delivered (config : Config ε) (s : Sys ε) : Prop :=
  s.events ++ s.pending.toList = (business s.session.returned).map config.wrap

theorem Delivered.step {a : Action} (hd : Delivered config s) (h : s.step config a = some s') :
    Delivered config s' := by
  unfold Delivered at hd ⊢
  cases step_inbound h with
  | keeps hkeeps =>
    have hreturned : s'.session.returned = s.session.returned := by
      rcases hkeeps.session with heq | heq <;> rw [heq]
    rw [hkeeps.events, hkeeps.pending, hreturned]
    exact hd
  | delivered event hpending hnone hevents hsession =>
    rw [hpending] at hd
    rw [hevents, hnone, hsession]
    simpa using hd
  | reads action session hrunning hpending hstep hreturned hevents hnone hsession =>
    rw [hevents, hnone, hsession, hreturned, ← hpending]
    exact hd
  | received action session result hrunning hpending hstep hreturned hevents hevent hsession herror =>
    have hreturned' : s'.session.returned = s.session.returned ++ [result] := by
      rcases hsession with heq | heq <;> rw [heq] <;> exact hreturned
    have hd' : s.events = (business s.session.returned).map config.wrap := by
      simpa [hpending] using hd
    rw [hevents, hevent, hreturned', hd']
    cases result with
    | error error =>
      rw [business_append_error]
      simp [eventOf]
    | ok frame =>
      rw [business_append_ok]
      cases hheartbeat : isHeartbeat frame <;> simp [eventOf, hheartbeat]

/-- Only an end or an error of the stream does not arrive, and either is a result of the read. -/
theorem error_of_not_arrives {serde : SerdeJson} {session session' : Session}
    {action : Session.Action} (h : Session.step serde session action = some session')
    (harrives : ¬ Session.Arrives session action) :
    ∃ error, session'.returned = session.returned ++ [.error error] := by
  cases action with
  | close =>
    simp only [Session.step] at h
    split at h
    · cases h
    · split_ifs at h
      rw [← Option.some.inj h]
      exact ⟨_, rfl⟩
  | fail error =>
    simp only [Session.step] at h
    split at h
    · cases h
    · rw [← Option.some.inj h]
      exact ⟨_, rfl⟩
  | _ => exact absurd trivial harrives

/-- The reader keeps its place in the stream of the frames until the call returns. -/
structure Follows (config : Config ε) (frames : List WireFrame) (s : Sys ε) : Prop where
  inv : s.session.Inv config.limit config.codec
  following : Running s → s.session.Following config.serde frames
  received : business s.session.returned <+: business (frames.map fun frame => .ok frame.val)

theorem inv_of_session {session session' : Session} {limit : ℕ} {codec : DataFrameCodec}
    (h : session.Inv limit codec)
    (heq : session' = session ∨ session' = { session with reading := none }) :
    session'.Inv limit codec := by
  rcases heq with rfl | rfl
  · exact h
  · exact ⟨h.wf, h.limit_eq, h.codec_eq, fun _ hplace => by cases hplace⟩

theorem following_of_session {session session' : Session} {serde : SerdeJson}
    {frames : List WireFrame} (h : session.Following serde frames)
    (heq : session' = session ∨ session' = { session with reading := none }) :
    session'.Following serde frames := by
  rcases heq with rfl | rfl
  · exact h
  · exact h

theorem returned_of_session {session session' : Session}
    (heq : session' = session ∨ session' = { session with reading := none }) :
    session'.returned = session.returned := by
  rcases heq with rfl | rfl <;> rfl

theorem business_prefix {serde : SerdeJson} {frames : List WireFrame} {session : Session}
    (h : session.Following serde frames) :
    business session.returned <+: business (frames.map fun frame => .ok frame.val) :=
  h.prefix_returned.filterMap _

theorem Follows.step {frames : List WireFrame} {a : Action} (hf : Follows config frames s)
    (h : s.step config a = some s') : Follows config frames s' := by
  have hbefore : Running s' → s.session.Following config.serde frames := fun hrunning =>
    hf.following (hrunning.before h)
  have hread : ∀ action session, Session.step config.serde s.session action = some session →
      (s'.session = session ∨ s'.session = { session with reading := none }) →
      (¬ Session.Arrives s.session action → ¬ Running s') → Running s →
      Follows config frames s' := by
    intro action session hstep hsession hends hrunning
    have hfollowing := hf.following hrunning
    by_cases harrives : Session.Arrives s.session action
    · have hnext := hfollowing.step hf.inv harrives hstep
      refine ⟨inv_of_session (hf.inv.step hstep) hsession,
        fun _ => following_of_session hnext hsession, ?_⟩
      rw [returned_of_session hsession]
      exact business_prefix hnext
    · obtain ⟨error, hreturned⟩ := error_of_not_arrives hstep harrives
      refine ⟨inv_of_session (hf.inv.step hstep) hsession,
        fun hrunning' => absurd hrunning' (hends harrives), ?_⟩
      rw [returned_of_session hsession, hreturned, business_append_error]
      exact hf.received
  cases step_inbound h with
  | keeps hkeeps =>
    refine ⟨inv_of_session hf.inv hkeeps.session,
      fun hrunning => following_of_session (hbefore hrunning) hkeeps.session, ?_⟩
    rw [returned_of_session hkeeps.session]
    exact hf.received
  | delivered event hpending hnone hevents hsession =>
    refine ⟨inv_of_session hf.inv (.inr hsession),
      fun hrunning => following_of_session (hbefore hrunning) (.inr hsession), ?_⟩
    rw [hsession]
    exact hf.received
  | reads action session hrunning hpending hstep hreturned hevents hnone hsession =>
    apply hread action session hstep (.inl hsession) _ hrunning
    intro harrives
    obtain ⟨error, herror⟩ := error_of_not_arrives hstep harrives
    rw [hreturned] at herror
    simp at herror
  | received action session result hrunning hpending hstep hreturned hevents hevent hsession
      herror =>
    apply hread action session hstep hsession _ hrunning
    intro harrives hrunning'
    obtain ⟨error, hlast⟩ := error_of_not_arrives hstep harrives
    rw [hreturned] at hlast
    have hresult : result = .error error := by simpa using hlast
    obtain ⟨result', hphase⟩ := herror error hresult
    exact hrunning' result' hphase

/-! What one step does to the frames that go out. -/

/-- The frames that were written for the outgoing queue. -/
def fromQueue (written : List (Origin × DataFrame)) : List DataFrame :=
  written.filterMap fun e => if e.1 = .queue then some e.2 else none

theorem fromQueue_append (written written' : List (Origin × DataFrame)) :
    fromQueue (written ++ written') = fromQueue written ++ fromQueue written' :=
  List.filterMap_append

/-- The wire holds the frames that were written, and a part of one more; what was taken from the queue
was written, but for `unwritten`. -/
structure Wired (config : Config ε) (written : List (Origin × DataFrame)) (taken : List DataFrame)
    (wire : Bytes) (unwritten : List DataFrame) (part : Bytes) : Prop where
  taken : taken = fromQueue written ++ unwritten
  wire : ∃ chunks, List.Forall₂ (fun e bytes =>
    writeDataFrame config.serde config.limit config.codec e.2 = .ok bytes) written chunks ∧
      wire = chunks.flatten ++ part
  heartbeats : ∀ e ∈ written, e.1 = .heartbeat → isHeartbeat e.2 = true

/-- Where the call is in its writes. -/
def Outbound (config : Config ε) (s : Sys ε) : Prop :=
  match s.phase with
  | .select => Wired config s.written s.taken s.wire [] []
  | .writing [] => Wired config s.written s.taken s.wire [] [] ∧ s.current = none
  | .writing (byte :: rest) => ∃ origin frame sent, s.current = some (origin, frame) ∧
      writeDataFrame config.serde config.limit config.codec frame = .ok (sent ++ byte :: rest) ∧
      (origin = .heartbeat → isHeartbeat frame = true) ∧
      Wired config s.written s.taken s.wire (fromQueue [(origin, frame)]) sent
  | .returned (.ok _) => Wired config s.written s.taken s.wire [] [] ∧ s.closed = true ∧
      s.outgoing = []
  | .returned (.error _) => ∃ unwritten part, Wired config s.written s.taken s.wire unwritten part ∧
      unwritten.length ≤ 1 ∧ (part = [] ∨ ∃ frame bytes, part <+: bytes ∧
        writeDataFrame config.serde config.limit config.codec frame = .ok bytes)

theorem writeDataFrame_ne_nil {serde : SerdeJson} {limit : ℕ} {codec : DataFrameCodec}
    {frame : DataFrame} {bytes : Bytes} (h : writeDataFrame serde limit codec frame = .ok bytes) :
    bytes ≠ [] := by
  unfold writeDataFrame at h
  split at h
  · cases h
  · rename_i payload _
    have hword := writePayload_word h
    exact List.ne_nil_of_length_pos hword.pos

theorem length_fromQueue_singleton (e : Origin × DataFrame) : (fromQueue [e]).length ≤ 1 := by
  unfold fromQueue
  exact List.length_filterMap_le _ _

theorem startWrite_outbound {origin : Origin} {frame : DataFrame}
    (hwired : Wired config s.written s.taken s.wire (fromQueue [(origin, frame)]) [])
    (hheartbeat : origin = .heartbeat → isHeartbeat frame = true) :
    Outbound config (s.startWrite config origin frame) := by
  unfold Sys.startWrite
  split
  · exact ⟨_, _, hwired, length_fromQueue_singleton _, .inl rfl⟩
  · rename_i bytes hbytes
    cases bytes with
    | nil => exact absurd rfl (writeDataFrame_ne_nil hbytes)
    | cons byte rest => exact ⟨origin, frame, [], rfl, hbytes, hheartbeat, hwired⟩

/-- The heartbeat branches take nothing from the queue. -/
theorem startWrite_heartbeat {frame : DataFrame}
    (hwired : Wired config s.written s.taken s.wire [] []) (hframe : isHeartbeat frame = true) :
    Outbound config (s.startWrite config .heartbeat frame) :=
  startWrite_outbound hwired fun _ => hframe

theorem finish_error_outbound (hwired : Wired config s.written s.taken s.wire [] [])
    (error : CarrierError) : Outbound config (s.finish (.error error)) :=
  ⟨[], [], hwired, by simp, .inl rfl⟩

theorem receive_outbound (hphase : s.phase = .select)
    (hwired : Wired config s.written s.taken s.wire [] []) (result : Except IoError DataFrame) :
    Outbound config (s.receive config result) := by
  have hselect : ∀ t : Sys ε, t.phase = .select → t.written = s.written → t.taken = s.taken →
      t.wire = s.wire → Outbound config t := by
    intro t ht hwritten htaken hwire
    unfold Outbound
    rw [ht, hwritten, htaken, hwire]
    exact hwired
  cases result with
  | error error => exact finish_error_outbound hwired _
  | ok frame =>
    cases frame with
    | ping nonce =>
      exact startWrite_heartbeat (s := { s with lastReceived := s.now }) hwired rfl
    | _ => exact hselect _ hphase rfl rfl rfl

theorem outbound_select (ho : Outbound config s) (hphase : s.phase = .select) :
    Wired config s.written s.taken s.wire [] [] := by
  unfold Outbound at ho
  rw [hphase] at ho
  exact ho

/-- A write that is not over has a frame, of which the rest is still to be sent. -/
theorem outbound_writing {rest : Bytes} (ho : Outbound config s) (hphase : s.phase = .writing rest)
    (hrest : rest ≠ []) : ∃ origin frame sent, s.current = some (origin, frame) ∧
      writeDataFrame config.serde config.limit config.codec frame = .ok (sent ++ rest) ∧
      (origin = .heartbeat → isHeartbeat frame = true) ∧
      Wired config s.written s.taken s.wire (fromQueue [(origin, frame)]) sent := by
  unfold Outbound at ho
  rw [hphase] at ho
  cases rest with
  | nil => exact absurd rfl hrest
  | cons byte rest => exact ho

/-- With its last bytes on the wire, a frame is written. -/
theorem Wired.append {written : List (Origin × DataFrame)} {taken : List DataFrame}
    {wire sent rest : Bytes} {origin : Origin} {frame : DataFrame}
    (h : Wired config written taken wire (fromQueue [(origin, frame)]) sent)
    (hbytes : writeDataFrame config.serde config.limit config.codec frame = .ok (sent ++ rest))
    (hheartbeat : origin = .heartbeat → isHeartbeat frame = true) :
    Wired config (written ++ [(origin, frame)]) taken (wire ++ rest) [] [] := by
  constructor
  · rw [h.taken]
    simp [fromQueue_append]
  · obtain ⟨chunks, hchunks, hwire⟩ := h.wire
    refine ⟨chunks ++ [sent ++ rest], ?_, ?_⟩
    · exact List.rel_append hchunks (.cons hbytes .nil)
    · rw [hwire]
      simp
  · intro e he horigin
    rcases List.mem_append.mp he with hmem | hmem
    · exact h.heartbeats e hmem horigin
    · rw [List.mem_singleton] at hmem
      rw [hmem] at horigin ⊢
      exact hheartbeat horigin

/-- A write puts its bytes on the wire, and its frame among the written ones with the last byte. -/
theorem transfer_outbound {count : ℕ} (ho : Outbound config s) (h : s.transfer count = some s') :
    Outbound config s' := by
  unfold Sys.transfer at h
  split at h
  · rename_i rest hphase
    split_ifs at h with hguard hlast
    · have hrest : rest ≠ [] := List.ne_nil_of_length_pos (by omega)
      obtain ⟨origin, frame, sent, hcurrent, hbytes, hheartbeat, hwired⟩ :=
        outbound_writing ho hphase hrest
      have htake : rest.take count = rest := by
        have happ := List.take_append_drop count rest
        rwa [hlast, List.append_nil] at happ
      rw [← Option.some.inj h]
      unfold Outbound
      dsimp only
      rw [hlast, hcurrent, htake]
      exact ⟨hwired.append hbytes hheartbeat, rfl⟩
    · have hrest : rest ≠ [] := List.ne_nil_of_length_pos (by omega)
      obtain ⟨origin, frame, sent, hcurrent, hbytes, hheartbeat, hwired⟩ :=
        outbound_writing ho hphase hrest
      rw [← Option.some.inj h]
      unfold Outbound
      dsimp only
      cases hdrop : rest.drop count with
      | nil => exact absurd hdrop hlast
      | cons byte rest' =>
        have happ := List.take_append_drop count rest
        rw [hdrop] at happ
        refine ⟨origin, frame, sent ++ rest.take count, hcurrent, ?_, hheartbeat, hwired.taken, ?_,
          hwired.heartbeats⟩
        · rw [List.append_assoc, happ]
          exact hbytes
        · obtain ⟨chunks, hchunks, hwire⟩ := hwired.wire
          refine ⟨chunks, hchunks, ?_⟩
          rw [hwire, List.append_assoc]
  · cases h

theorem Outbound.step {a : Action} (ho : Outbound config s) (h : s.step config a = some s') :
    Outbound config s' := by
  cases a with
  | clock now =>
    rw [← Option.some.inj h]
    exact ho
  | push frame =>
    simp only [Sys.step] at h
    split_ifs at h with hclosed
    rw [← Option.some.inj h]
    unfold Outbound at ho ⊢
    dsimp only
    cases hphase : s.phase with
    | select =>
      rw [hphase] at ho
      exact ho
    | writing rest =>
      rw [hphase] at ho
      cases rest <;> exact ho
    | returned result =>
      rw [hphase] at ho
      cases result with
      | error error => exact ho
      | ok _ => exact absurd ho.2.1 (by simpa using hclosed)
  | closeOutgoing =>
    rw [← Option.some.inj h]
    unfold Outbound at ho ⊢
    dsimp only
    cases hphase : s.phase with
    | select =>
      rw [hphase] at ho
      exact ho
    | writing rest =>
      rw [hphase] at ho
      cases rest <;> exact ho
    | returned result =>
      rw [hphase] at ho
      cases result with
      | error error => exact ho
      | ok _ => exact ⟨ho.1, rfl, ho.2.2⟩
  | permit granted =>
    simp only [Sys.step, Sys.permit] at h
    split at h
    · rename_i hphase _
      have hwired := outbound_select ho hphase
      split_ifs at h
      · rw [← Option.some.inj h]
        unfold Outbound
        dsimp only [Sys.dropRead]
        rw [hphase]
        exact hwired
      · rw [← Option.some.inj h]
        exact finish_error_outbound hwired _
    · cases h
  | recv =>
    simp only [Sys.step, Sys.recv] at h
    split at h
    · rename_i frame rest hphase _
      have hwired := outbound_select ho hphase
      rw [← Option.some.inj h]
      apply startWrite_outbound
      · refine ⟨?_, hwired.wire, hwired.heartbeats⟩
        dsimp only
        rw [hwired.taken, List.append_nil]
        rfl
      · intro horigin
        cases horigin
    · rename_i hphase houtgoing
      have hwired := outbound_select ho hphase
      split_ifs at h with hclosed
      rw [← Option.some.inj h]
      exact ⟨hwired, hclosed, houtgoing⟩
    · cases h
  | read action =>
    simp only [Sys.step, Sys.read] at h
    split at h
    · cases h
    · rename_i hphase hpending hne
      obtain ⟨session, hstep, rfl⟩ := Option.map_eq_some_iff.mp h
      have hwired := outbound_select ho hphase
      split
      · exact receive_outbound (s := { s with session := session }) hphase hwired _
      · unfold Outbound
        dsimp only
        rw [hphase]
        exact hwired
    · cases h
  | tick =>
    simp only [Sys.step, Sys.tick] at h
    split at h
    · rename_i hphase
      have hwired := outbound_select ho hphase
      split_ifs at h
      · rw [← Option.some.inj h]
        exact finish_error_outbound hwired _
      · rw [← Option.some.inj h]
        exact finish_error_outbound hwired _
      · rw [← Option.some.inj h]
        exact startWrite_heartbeat (s := { s with nonce := (s.nonce + 1) % 2 ^ 64 }) hwired rfl
    · cases h
  | transfer count => exact transfer_outbound ho h
  | flush =>
    simp only [Sys.step, Sys.flush] at h
    split at h
    · rename_i hphase
      rw [← Option.some.inj h]
      unfold Outbound at ho
      rw [hphase] at ho
      exact ho.1
    · cases h
  | failWrite error =>
    simp only [Sys.step, Sys.failWrite] at h
    split at h
    · rename_i rest hphase
      rw [← Option.some.inj h]
      unfold Outbound at ho
      rw [hphase] at ho
      cases rest with
      | nil => exact finish_error_outbound ho.1 _
      | cons byte rest =>
        obtain ⟨origin, frame, sent, -, hbytes, -, hwired⟩ := ho
        exact ⟨_, sent, hwired, length_fromQueue_singleton _,
          .inr ⟨frame, _, List.prefix_append _ _, hbytes⟩⟩
    · cases h

theorem startWrite_queues (config : Config ε) (s : Sys ε) (origin : Origin) (frame : DataFrame) :
    (s.startWrite config origin frame).queued = s.queued ∧
      (s.startWrite config origin frame).taken = s.taken ∧
      (s.startWrite config origin frame).outgoing = s.outgoing := by
  unfold Sys.startWrite
  split
  · exact ⟨rfl, rfl, rfl⟩
  · exact ⟨rfl, rfl, rfl⟩

/-- The queue gives its frames in order. -/
theorem queued_step {a : Action} (hq : s.queued = s.taken ++ s.outgoing)
    (h : s.step config a = some s') : s'.queued = s'.taken ++ s'.outgoing := by
  have hwrite : ∀ (t : Sys ε) origin frame, t.queued = t.taken ++ t.outgoing →
      (t.startWrite config origin frame).queued = (t.startWrite config origin frame).taken ++
        (t.startWrite config origin frame).outgoing := by
    intro t origin frame ht
    obtain ⟨hqueued, htaken, houtgoing⟩ := startWrite_queues config t origin frame
    rw [hqueued, htaken, houtgoing]
    exact ht
  cases a with
  | clock now =>
    rw [← Option.some.inj h]
    exact hq
  | push frame =>
    simp only [Sys.step] at h
    split_ifs at h
    rw [← Option.some.inj h]
    dsimp only
    rw [hq, List.append_assoc]
  | closeOutgoing =>
    rw [← Option.some.inj h]
    exact hq
  | permit granted =>
    simp only [Sys.step, Sys.permit] at h
    split at h
    · split_ifs at h
      · rw [← Option.some.inj h]
        exact hq
      · rw [← Option.some.inj h]
        exact hq
    · cases h
  | recv =>
    simp only [Sys.step, Sys.recv] at h
    split at h
    · rename_i frame rest _ houtgoing
      rw [← Option.some.inj h]
      apply hwrite
      dsimp only
      rw [hq, houtgoing]
      simp
    · split_ifs at h
      rw [← Option.some.inj h]
      exact hq
    · cases h
  | read action =>
    simp only [Sys.step, Sys.read] at h
    split at h
    · cases h
    · obtain ⟨session, -, rfl⟩ := Option.map_eq_some_iff.mp h
      split
      · rename_i result _ _
        cases result with
        | error error => exact hq
        | ok frame =>
          cases frame with
          | ping nonce => exact hwrite { s with session := session, lastReceived := s.now } _ _ hq
          | _ => exact hq
      · exact hq
    · cases h
  | tick =>
    simp only [Sys.step, Sys.tick] at h
    split at h
    · split_ifs at h
      · rw [← Option.some.inj h]
        exact hq
      · rw [← Option.some.inj h]
        exact hq
      · rw [← Option.some.inj h]
        exact hwrite { s with nonce := (s.nonce + 1) % 2 ^ 64 } _ _ hq
    · cases h
  | transfer count =>
    simp only [Sys.step, Sys.transfer] at h
    split at h
    · split_ifs at h
      · rw [← Option.some.inj h]
        exact hq
      · rw [← Option.some.inj h]
        exact hq
    · cases h
  | flush =>
    simp only [Sys.step, Sys.flush] at h
    split at h
    · rw [← Option.some.inj h]
      exact hq
    · cases h
  | failWrite error =>
    simp only [Sys.step, Sys.failWrite] at h
    split at h
    · rw [← Option.some.inj h]
      exact hq
    · cases h

/-! Runs. -/

theorem delivered_of_reachable (h : (machine config stream).Reachable s) : Delivered config s := by
  apply Machine.Reachable.invariant h
  · rfl
  · intro t a t' ht hstep
    exact ht.step hstep

theorem outbound_of_reachable (h : (machine config stream).Reachable s) :
    Outbound config s ∧ s.queued = s.taken ++ s.outgoing := by
  apply Machine.Reachable.invariant h
  · refine ⟨⟨rfl, ⟨[], .nil, rfl⟩, ?_⟩, rfl⟩
    intro e he
    cases he
  · intro t a t' ht hstep
    exact ⟨ht.1.step hstep, queued_step ht.2 hstep⟩

theorem follows_of_reachable (hjson : config.serde.RoundTrips) {frames : List WireFrame}
    (hw : writeAll config.serde config.limit config.codec frames = .ok stream)
    (h : (machine config stream).Reachable s) : Follows config frames s := by
  apply Machine.Reachable.invariant h
  · have hstart : ((Session.machine config.serde config.limit config.codec stream).ReachableWhere
        Session.Arrives) (machine config stream).start.session := Relation.ReflTransGen.refl
    exact ⟨@Session.inv_start config.serde config.limit config.codec stream,
      fun _ => Session.following_of_reachable hjson hw hstart, List.nil_prefix⟩
  · intro t a t' ht hstep
    exact ht.step hstep

/-- At any time at most one frame that was taken from the queue is not on the wire, or not all of
it. -/
theorem Outbound.wired (h : Outbound config s) : ∃ unwritten part,
    Wired config s.written s.taken s.wire unwritten part ∧ unwritten.length ≤ 1 ∧
      (part = [] ∨ ∃ frame bytes, part <+: bytes ∧
        writeDataFrame config.serde config.limit config.codec frame = .ok bytes) := by
  unfold Outbound at h
  split at h
  · exact ⟨[], [], h, by simp, .inl rfl⟩
  · exact ⟨[], [], h.1, by simp, .inl rfl⟩
  · obtain ⟨origin, frame, sent, -, hbytes, -, hwired⟩ := h
    exact ⟨_, sent, hwired, length_fromQueue_singleton _,
      .inr ⟨frame, _, List.prefix_append _ _, hbytes⟩⟩
  · exact ⟨[], [], h.1, by simp, .inl rfl⟩
  · exact h

/-- What a call has made of its two streams. -/
structure Forwards (config : Config ε) (s : Sys ε) : Prop where
  delivered : s.events ++ s.pending.toList = (business s.session.returned).map config.wrap
  queued : s.queued = s.taken ++ s.outgoing
  wired : ∃ unwritten part, Wired config s.written s.taken s.wire unwritten part ∧
    unwritten.length ≤ 1 ∧ (part = [] ∨ ∃ frame bytes, part <+: bytes ∧
      writeDataFrame config.serde config.limit config.codec frame = .ok bytes)
  drained : s.phase = .returned (.ok ()) → s.closed = true ∧ fromQueue s.written = s.queued ∧
    Wired config s.written s.taken s.wire [] []
  kept : ∀ a t event, s.pending = some event → s.step config a = some t →
    t.pending = some event ∨ t.pending = none ∧ t.events = s.events ++ [event]
  permitted : ∀ event, s.pending = some event → s.phase = .select →
    ∃ t, s.step config (.permit true) = some t ∧ t.pending = none ∧
      t.events = s.events ++ [event] ∧ t.phase = .select

/-- Whatever the order of its branches, the chunks of the stream, the delays of the queues and the
heartbeats between the frames: the events are, in order and each once, the frames that were read for
the flows, but for the last while it waits for its permit, and it waits until it is delivered or the
call returns. What is written is what was taken from the queue, in order, with heartbeats between, and
all of what was queued where the call returns `Ok`. From a stream of frames it is these frames that
are read. -/
theorem forwards_of_reachable (hjson : config.serde.RoundTrips) :
    (∀ stream s, (machine config stream).Reachable s → Forwards config s) ∧
    ∀ frames stream, writeAll config.serde config.limit config.codec frames = .ok stream →
      ∀ s, (machine config stream).Reachable s →
        business s.session.returned <+: business (frames.map fun frame => .ok frame.val) ∧
        (Running s → s.session.input = [] →
          business s.session.returned = business (frames.map fun frame => .ok frame.val)) := by
  constructor
  · intro stream s hs
    obtain ⟨hout, hqueued⟩ := outbound_of_reachable hs
    refine ⟨delivered_of_reachable hs, hqueued, hout.wired, ?_, ?_, ?_⟩
    · intro hphase
      unfold Outbound at hout
      rw [hphase] at hout
      obtain ⟨hwired, hclosed, houtgoing⟩ := hout
      have htaken := hwired.taken
      rw [List.append_nil] at htaken
      refine ⟨hclosed, ?_, hwired⟩
      rw [hqueued, houtgoing, List.append_nil, htaken]
    · intro a t event hpending hstep
      cases step_inbound hstep with
      | keeps hkeeps => exact .inl (hkeeps.pending.trans hpending)
      | delivered event' hpending' hnone hevents hsession =>
        have heq : event' = event := Option.some.inj (hpending'.symm.trans hpending)
        subst heq
        exact .inr ⟨hnone, hevents⟩
      | reads action session hrunning hnone => rw [hpending] at hnone; cases hnone
      | received action session result hrunning hnone => rw [hpending] at hnone; cases hnone
    · intro event hpending hphase
      refine ⟨{ s.dropRead with pending := none, events := s.events ++ [event] }, ?_, rfl, rfl,
        hphase⟩
      simp [Sys.step, Sys.permit, hphase, hpending]
  · intro frames stream hw s hs
    have hfollows := follows_of_reachable hjson hw hs
    refine ⟨hfollows.received, ?_⟩
    intro hrunning hinput
    have hall := (hfollows.following hrunning).all_returned hinput
    rw [hall]

/-! A frame comes in while another goes out. -/

def sampleConfig : Config DataFrame where
  serde := Session.pingJson
  limit := 1024
  codec := .binaryV1
  wrap := id
  timeoutPeriod := 60

theorem sampleFrame_fits : DataFrame.Fits (.data 5 42 [1, 2, 3]) := by simp [DataFrame.Fits]

def sampleFrame : WireFrame := ⟨.data 5 42 [1, 2, 3], sampleFrame_fits⟩

def sampleStream : Bytes :=
  [0, 0, 0, 28] ++ 1 :: (BigEndian.toBytes 16 5 ++ BigEndian.toBytes 8 42 ++ [1, 2, 3])

/-- The frame is read in pieces, between which another is taken from the queue and written. -/
def bothWays : List Action :=
  [.push (.data 7 0 [9]), .read .read, .read (.chunk 3), .recv, .transfer 10, .transfer 20, .flush,
    .read .read, .read (.chunk 1), .read (.chunk 28), .closeOutgoing]

theorem forwards_bothWays : ∃ s, (machine sampleConfig sampleStream).exec
      (bothWays ++ [.permit true, .recv]) = some s ∧
    s.phase = .returned (.ok ()) ∧ s.events = [.data 5 42 [1, 2, 3]] ∧
    fromQueue s.written = [.data 7 0 [9]] ∧
    business s.session.returned <+: business [.ok (.data 5 42 [1, 2, 3])] := by
  have hrun : ((machine sampleConfig sampleStream).exec (bothWays ++ [.permit true, .recv])).map
      (fun s => (s.phase, s.events, s.queued)) =
        some (.returned (.ok ()), [.data 5 42 [1, 2, 3]], [.data 7 0 [9]]) := by
    decide
  have hw : writeAll sampleConfig.serde sampleConfig.limit sampleConfig.codec [sampleFrame] =
      .ok sampleStream := by
    decide
  obtain ⟨s, hs, hstate⟩ := Option.map_eq_some_iff.mp hrun
  obtain ⟨hphase, hstate⟩ := Prod.mk.inj hstate
  obtain ⟨hevents, hqueued⟩ := Prod.mk.inj hstate
  have hreachable := Machine.reachable_of_exec hs
  have hall := @forwards_of_reachable _ sampleConfig Session.pingJson_roundTrips
  obtain ⟨-, hwritten, -⟩ := (hall.1 _ s hreachable).drained hphase
  refine ⟨s, hs, hphase, hevents, ?_, (hall.2 [sampleFrame] _ hw s hreachable).1⟩
  rw [hwritten]
  exact hqueued

/-- The outgoing queue ends while the event waits for its permit: the call returns `Ok`, and the frame
is not delivered. -/
theorem not_delivered_of_closed : ∃ s, (machine sampleConfig sampleStream).exec
      (bothWays ++ [.recv]) = some s ∧ s.phase = .returned (.ok ()) ∧
    business s.session.returned = [.data 5 42 [1, 2, 3]] ∧
    s.pending = some (.data 5 42 [1, 2, 3]) ∧ s.events = [] := by
  have hrun : ((machine sampleConfig sampleStream).exec (bothWays ++ [.recv])).map
      (fun s => (s.phase, business s.session.returned, s.pending, s.events)) =
        some (.returned (.ok ()), [.data 5 42 [1, 2, 3]], some (.data 5 42 [1, 2, 3]), []) := by
    decide
  obtain ⟨s, hs, hstate⟩ := Option.map_eq_some_iff.mp hrun
  obtain ⟨hphase, hstate⟩ := Prod.mk.inj hstate
  obtain ⟨hbusiness, hstate⟩ := Prod.mk.inj hstate
  obtain ⟨hpending, hevents⟩ := Prod.mk.inj hstate
  exact ⟨s, hs, hphase, hbusiness, hpending, hevents⟩

end Carrier
end FlowSplice.Frame
