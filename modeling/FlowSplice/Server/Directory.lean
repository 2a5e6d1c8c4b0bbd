import Mathlib.Data.List.Sort
import FlowSplice.Lib.Machine
import FlowSplice.Lib.Keyed
import FlowSplice.Lib.Log
import FlowSplice.Control.Snapshot

/-! The Relay directory of the Server, with the sessions of its Relays, of `server/src/main.rs`, and
how a Relay applies the directories that it is sent, of `relay/src/main.rs`. -/
namespace FlowSplice.Server

open Control (RelayEndpoint RelayDirectory)

/-- `ControlSigner::allocate_generation`: the generation and the one after it, unless the counter
ends or is not stored. -/
def allocateGeneration (next : ℕ) (stored : Bool) : Option (ℕ × ℕ) :=
  if next + 1 < 2 ^ 64 ∧ stored then some (next, next + 1) else none

structure RelayDirectorySession where
  sessionId : Uuid
  endpoint : Option RelayEndpoint
deriving DecidableEq, Repr

structure RelayDirectoryRegistry where
  generation : ℕ := 0
  sessions : Table String RelayDirectorySession := ∅

namespace RelayDirectoryRegistry
variable (registry : RelayDirectoryRegistry)

/-- Relays are sorted by their id. -/
def directory : RelayDirectory where
  generation := registry.generation
  relays := (registry.sessions.values.filterMap (·.endpoint)).insertionSort fun left right =>
    stringBytes left.id ≤ stringBytes right.id

def replaceSession (relayId : String) (sessionId : Uuid) (endpoint : Option RelayEndpoint)
    (generation : ℕ) : RelayDirectoryRegistry where
  generation := generation
  sessions := registry.sessions.insert relayId ⟨sessionId, endpoint⟩

/-- The session of a Relay is this one. -/
def isCurrent (relayId : String) (sessionId : Uuid) : Bool :=
  (registry.sessions.lookup relayId).any (·.sessionId == sessionId)

def updateSession (relayId : String) (sessionId : Uuid) (endpoint : Option RelayEndpoint)
    (generation : ℕ) : Option RelayDirectoryRegistry :=
  if registry.isCurrent relayId sessionId then
    some ⟨generation, registry.sessions.insert relayId ⟨sessionId, endpoint⟩⟩
  else none

def unregisterSession (relayId : String) (sessionId : Uuid) (generation : ℕ) :
    Option RelayDirectoryRegistry :=
  if registry.isCurrent relayId sessionId then
    some ⟨generation, registry.sessions.erase relayId⟩
  else none

end RelayDirectoryRegistry

/-- `validate_relay_directory` of a Relay. What `connectable` accepts is a literal socket address
that can be connected to. -/
def validateReceivedDirectory (connectable : String → Bool) (directory : RelayDirectory) : Bool :=
  directory.generation != 0 &&
    directory.relays.all (fun endpoint =>
      !endpoint.id.isEmpty && validSpkiPin endpoint.managementSpkiSha256 &&
        connectable endpoint.managementAddr && connectable endpoint.dataPublicAddr) &&
    decide ((directory.relays.map fun endpoint => stringBytes endpoint.id).Pairwise (· < ·))

/-- `apply_relay_directory`. -/
def applyRelayDirectory (connectable : String → Bool) (current directory : RelayDirectory) :
    Option RelayDirectory :=
  if !validateReceivedDirectory connectable directory then none
  else if directory.generation < current.generation then some current
  else if directory.generation = current.generation then
    if directory = current then some current else none
  else some directory

/-- Where a session is: in `relay_sessions`, in the directory, past its first directory, ended by an
error, no longer in `relay_sessions`, and over. -/
inductive Stage where
  | registered
  | opening
  | running
  | leaving
  | unregistering
  | ended
deriving DecidableEq, Repr

/-- A directory that has been made and not been published, with the number of those made before. -/
structure Made where
  directory : RelayDirectory
  ticket : ℕ
deriving DecidableEq, Repr

/-- A session of a Relay. `replaced` tells that it has been in the directory, `seen` how many
directories had been published when it last sent one, and `sent` is on its way to the Relay. -/
structure RelaySession where
  relay : String
  endpoint : Option RelayEndpoint
  stage : Stage := .registered
  replaced : Bool := false
  publishing : Option Made := none
  seen : ℕ := 0
  sent : List RelayDirectory := []
  closed : Bool := false
deriving DecidableEq, Repr

/-- The state of the Server, and of the directory that each Relay holds. The last of `published` is
the value of `relay_directory_tx`. `made` logs the directories as they are made, and `refused` the
sessions that an update has found superseded, with whether they were still in `relay_sessions`. -/
structure Sys where
  nextGeneration : ℕ
  registry : RelayDirectoryRegistry
  published : List Made
  relaySessions : Table String Uuid := ∅
  sessions : Table Uuid RelaySession := ∅
  relays : String → RelayDirectory := fun _ => {}
  made : List RelayDirectory
  refused : List (Uuid × Bool) := []

/-- `stored` tells whether a new generation is stored, and `sign` stands for its other uses. -/
inductive Action where
  | connect (session : Uuid) (relay : String) (endpoint : Option RelayEndpoint)
  | replace (session : Uuid) (stored : Bool)
  | publish (session : Uuid)
  | open (session : Uuid)
  | notify (session : Uuid)
  | update (session : Uuid) (endpoint : Option RelayEndpoint) (stored : Bool)
  | fail (session : Uuid)
  | leave (session : Uuid)
  | unregister (session : Uuid) (stored : Bool)
  | deliver (session : Uuid)
  | sign (stored : Bool)
deriving DecidableEq, Repr

namespace Sys

/-- The value of `relay_directory_tx`. -/
def directory (s : Sys) : RelayDirectory := (s.published.getLast?.map (·.directory)).getD {}

def setSession (s : Sys) (id : Uuid) (session : RelaySession) : Sys :=
  { s with sessions := s.sessions.insert id session }

/-- A changed registry, whose directory the session has yet to publish. -/
def change (s : Sys) (id : Uuid) (session : RelaySession) (registry : RelayDirectoryRegistry)
    (next : ℕ) : Sys :=
  { s with
    nextGeneration := next
    registry := registry
    made := s.made ++ [registry.directory]
    sessions := s.sessions.insert id
      { session with publishing := some ⟨registry.directory, s.made.length⟩ } }

/-- A session that is not publishing. -/
def idle (s : Sys) (id : Uuid) (stage : Stage) : Option RelaySession :=
  (s.sessions.lookup id).filter fun session =>
    session.stage == stage && session.publishing.isNone

/-- `run_relay_session` up to its insertion in `relay_sessions`. Ids of sessions are not used again,
and an endpoint carries the id of its Relay. -/
def connect (s : Sys) (id : Uuid) (relay : String) (endpoint : Option RelayEndpoint) : Option Sys :=
  if (s.sessions.lookup id).isSome || endpoint.any (·.id != relay) then none
  else some { s.setSession id { relay, endpoint } with
    relaySessions := s.relaySessions.insert relay id }

/-- `replace_relay_session_endpoint` up to the end of its lock. -/
def replace (s : Sys) (id : Uuid) (stored : Bool) : Option Sys :=
  (s.idle id .registered).map fun session =>
    match allocateGeneration s.nextGeneration stored with
    | none => s.setSession id { session with stage := .leaving }
    | some (generation, next) =>
      s.change id { session with stage := .opening, replaced := true }
        (s.registry.replaceSession session.relay id session.endpoint generation) next

def publish (s : Sys) (id : Uuid) : Option Sys :=
  match s.sessions.lookup id with
  | some session =>
    session.publishing.map fun made =>
      { s.setSession id { session with publishing := none } with
        published := s.published ++ [made] }
  | none => none

/-- The session sends the present directory. -/
def send (s : Sys) (id : Uuid) (session : RelaySession) : Sys :=
  s.setSession id { session with
    stage := .running
    seen := s.published.length
    sent := session.sent ++ [s.directory] }

/-- `update_relay_session_endpoint` up to the end of its lock. -/
def update (s : Sys) (id : Uuid) (endpoint : Option RelayEndpoint) (stored : Bool) : Option Sys :=
  ((s.idle id .running).filter fun session => endpoint.all (·.id == session.relay)).map fun session =>
    if !s.registry.isCurrent session.relay id then
      { s.setSession id { session with stage := .leaving } with
        refused := s.refused ++ [(id, decide (s.relaySessions.lookup session.relay = some id))] }
    else
      match allocateGeneration s.nextGeneration stored with
      | none => s.setSession id { session with stage := .leaving }
      | some (generation, next) =>
        match s.registry.updateSession session.relay id endpoint generation with
        | none => s.setSession id { session with stage := .leaving }
        | some registry => s.change id { session with endpoint := endpoint } registry next

/-- The session leaves `relay_sessions`, unless it was superseded. -/
def leave (s : Sys) (id : Uuid) : Option Sys :=
  (s.idle id .leaving).map fun session =>
    if s.relaySessions.lookup session.relay = some id then
      { s.setSession id { session with stage := .unregistering } with
        relaySessions := s.relaySessions.erase session.relay }
    else s.setSession id { session with stage := .ended }

/-- `unregister_relay_session_endpoint` up to the end of its lock. -/
def unregister (s : Sys) (id : Uuid) (stored : Bool) : Option Sys :=
  (s.idle id .unregistering).map fun session =>
    let ended := s.setSession id { session with stage := .ended }
    if !s.registry.isCurrent session.relay id then ended
    else
      match allocateGeneration s.nextGeneration stored with
      | none => ended
      | some (generation, next) =>
        match s.registry.unregisterSession session.relay id generation with
        | none => ended
        | some registry => s.change id { session with stage := .ended } registry next

/-- The Relay applies the next directory, or closes the connection. -/
def deliver (s : Sys) (connectable : String → Bool) (id : Uuid) : Option Sys :=
  match s.sessions.lookup id with
  | none => none
  | some session =>
    match session.sent with
    | [] => none
    | directory :: sent =>
      match applyRelayDirectory connectable (s.relays session.relay) directory with
      | some applied =>
        some { s.setSession id { session with sent := sent } with
          relays := Function.update s.relays session.relay applied }
      | none => some (s.setSession id { session with sent := [], closed := true })

def step (connectable : String → Bool) (s : Sys) : Action → Option Sys
  | .connect id relay endpoint => s.connect id relay endpoint
  | .replace id stored => s.replace id stored
  | .publish id => s.publish id
  | .open id => (s.idle id .opening).map (s.send id)
  | .notify id =>
    ((s.idle id .running).filter (·.seen != s.published.length)).map (s.send id)
  | .update id endpoint stored => s.update id endpoint stored
  | .fail id =>
    (s.sessions.lookup id).bind fun session =>
      if session.publishing.isNone ∧ session.stage ∈ [.registered, .opening, .running] then
        some (s.setSession id { session with stage := .leaving })
      else none
  | .leave id => s.leave id
  | .unregister id stored => s.unregister id stored
  | .deliver id => s.deliver connectable id
  | .sign stored =>
    (allocateGeneration s.nextGeneration stored).map fun allocated =>
      { s with nextGeneration := allocated.2 }

end Sys

/-- `State::new`: a Server takes its first generation, which is positive, for an empty directory. -/
def machine (connectable : String → Bool) (generation : ℕ) : Machine Sys Action where
  start :=
    { nextGeneration := generation + 2
      registry := { generation := generation + 1 }
      published := [⟨{ generation := generation + 1 }, 0⟩]
      made := [{ generation := generation + 1 }] }
  step := Sys.step connectable

theorem allocateGeneration_eq_some {next generation following : ℕ} {stored : Bool}
    (h : allocateGeneration next stored = some (generation, following)) :
    generation = next ∧ following = next + 1 := by
  unfold allocateGeneration at h
  split_ifs at h
  obtain ⟨hgeneration, hfollowing⟩ := Prod.mk.inj (Option.some.inj h)
  exact ⟨hgeneration.symm, hfollowing.symm⟩

theorem applyRelayDirectory_eq_some {connectable : String → Bool}
    {current directory applied : RelayDirectory}
    (h : applyRelayDirectory connectable current directory = some applied) :
    (applied = current ∧ directory.generation ≤ current.generation) ∨
      (applied = directory ∧ current.generation < directory.generation) := by
  unfold applyRelayDirectory at h
  split_ifs at h with hvalid hstale hsame hequal
  · exact .inl ⟨(Option.some.inj h).symm, Nat.le_of_lt hstale⟩
  · exact .inl ⟨(Option.some.inj h).symm, Nat.le_of_eq hsame⟩
  · refine .inr ⟨(Option.some.inj h).symm, ?_⟩
    omega

namespace Sys
variable {connectable : String → Bool} {s s' : Sys} {a : Action} {id : Uuid}
  {session : RelaySession}

/-- How the state moves. -/
inductive Moves (connectable : String → Bool) (s : Sys) : Action → Sys → Prop where
  | connect (id : Uuid) (relay : String) (endpoint : Option RelayEndpoint)
      (hfree : s.sessions.lookup id = none) (hnamed : ∀ e ∈ endpoint, e.id = relay) :
      Moves connectable s (.connect id relay endpoint) { s.setSession id { relay, endpoint } with
        relaySessions := s.relaySessions.insert relay id }
  | replace (id : Uuid) (stored : Bool) (session : RelaySession)
      (hsession : s.sessions.lookup id = some session) (hidle : session.publishing = none)
      (hstage : session.stage = .registered) :
      Moves connectable s (.replace id stored)
        (s.change id { session with stage := .opening, replaced := true }
          (s.registry.replaceSession session.relay id session.endpoint s.nextGeneration)
          (s.nextGeneration + 1))
  | update (id : Uuid) (endpoint : Option RelayEndpoint) (stored : Bool) (session : RelaySession)
      (hsession : s.sessions.lookup id = some session) (hidle : session.publishing = none)
      (hstage : session.stage = .running) (hnamed : ∀ e ∈ endpoint, e.id = session.relay)
      (hcurrent : s.registry.isCurrent session.relay id = true) :
      Moves connectable s (.update id endpoint stored)
        (s.change id { session with endpoint := endpoint }
          ⟨s.nextGeneration, s.registry.sessions.insert session.relay ⟨id, endpoint⟩⟩
          (s.nextGeneration + 1))
  | unregister (id : Uuid) (stored : Bool) (session : RelaySession)
      (hsession : s.sessions.lookup id = some session) (hidle : session.publishing = none)
      (hstage : session.stage = .unregistering)
      (hcurrent : s.registry.isCurrent session.relay id = true) :
      Moves connectable s (.unregister id stored)
        (s.change id { session with stage := .ended }
          ⟨s.nextGeneration, s.registry.sessions.erase session.relay⟩ (s.nextGeneration + 1))
  | publish (id : Uuid) (session : RelaySession) (made : Made)
      (hsession : s.sessions.lookup id = some session)
      (hmade : session.publishing = some made) :
      Moves connectable s (.publish id) { s.setSession id { session with publishing := none } with
        published := s.published ++ [made] }
  | send (a : Action) (id : Uuid) (session : RelaySession)
      (hsession : s.sessions.lookup id = some session) (hidle : session.publishing = none)
      (hstage : session.stage = .opening ∨ session.stage = .running) :
      Moves connectable s a (s.send id session)
  | fail (a : Action) (id : Uuid) (session : RelaySession) (refused : List (Uuid × Bool))
      (hsession : s.sessions.lookup id = some session) (hidle : session.publishing = none)
      (hstage : session.stage ∈ [Stage.registered, .opening, .running])
      (hrefused : refused = s.refused ∨ session.stage = .running ∧
        s.registry.isCurrent session.relay id = false ∧ refused = s.refused ++
          [(id, decide (s.relaySessions.lookup session.relay = some id))]) :
      Moves connectable s a { s.setSession id { session with stage := .leaving } with refused := refused }
  | leave (id : Uuid) (session : RelaySession) (hsession : s.sessions.lookup id = some session)
      (hidle : session.publishing = none) (hstage : session.stage = .leaving)
      (hcurrent : s.relaySessions.lookup session.relay = some id) :
      Moves connectable s (.leave id) { s.setSession id { session with stage := .unregistering } with
        relaySessions := s.relaySessions.erase session.relay }
  | gone (a : Action) (id : Uuid) (session : RelaySession)
      (hsession : s.sessions.lookup id = some session) (hidle : session.publishing = none)
      (hstage : session.stage = .leaving ∧ s.relaySessions.lookup session.relay ≠ some id ∨
        session.stage = .unregistering ∧ ∃ stored, a = .unregister id stored ∧
          (s.registry.isCurrent session.relay id = false ∨
            allocateGeneration s.nextGeneration stored = none)) :
      Moves connectable s a (s.setSession id { session with stage := .ended })
  | deliver (id : Uuid) (session : RelaySession) (directory applied : RelayDirectory)
      (sent : List RelayDirectory) (hsession : s.sessions.lookup id = some session)
      (hsent : session.sent = directory :: sent)
      (happlied : applyRelayDirectory connectable (s.relays session.relay) directory =
        some applied) :
      Moves connectable s (.deliver id) { s.setSession id { session with sent := sent } with
        relays := Function.update s.relays session.relay applied }
  | close (id : Uuid) (session : RelaySession) (hsession : s.sessions.lookup id = some session) :
      Moves connectable s (.deliver id) (s.setSession id { session with sent := [], closed := true })
  | sign (stored : Bool) : Moves connectable s (.sign stored) { s with nextGeneration := s.nextGeneration + 1 }

theorem idle_eq_some {stage : Stage} (h : s.idle id stage = some session) :
    s.sessions.lookup id = some session ∧ session.stage = stage ∧ session.publishing = none := by
  obtain ⟨hsession, hidle⟩ := Option.filter_eq_some_iff.mp h
  simp only [Bool.and_eq_true, beq_iff_eq, Option.isNone_iff_eq_none] at hidle
  exact ⟨hsession, hidle⟩

theorem connect_moves {relay : String} {endpoint : Option RelayEndpoint}
    (h : s.connect id relay endpoint = some s') :
    s.Moves connectable (.connect id relay endpoint) s' := by
  unfold connect at h
  split_ifs at h with hbusy
  rw [← Option.some.inj h]
  simp only [Bool.or_eq_true, not_or, Bool.not_eq_true, Option.isSome_eq_false_iff,
    Option.isNone_iff_eq_none] at hbusy
  exact .connect id relay endpoint hbusy.1 fun e he => by simpa [Option.mem_def.mp he] using hbusy.2

theorem replace_moves {stored : Bool} (h : s.replace id stored = some s') :
    s.Moves connectable (.replace id stored) s' := by
  obtain ⟨session, hidle, rfl⟩ := Option.map_eq_some_iff.mp h
  obtain ⟨hsession, hstage, hnone⟩ := idle_eq_some hidle
  split
  · exact .fail _ id session s.refused hsession hnone (by simp [hstage]) (.inl rfl)
  · next generation next halloc =>
    obtain ⟨rfl, rfl⟩ := allocateGeneration_eq_some halloc
    exact .replace id stored session hsession hnone hstage

theorem publish_moves (h : s.publish id = some s') : s.Moves connectable (.publish id) s' := by
  unfold publish at h
  split at h
  · next session hsession =>
    obtain ⟨made, hmade, rfl⟩ := Option.map_eq_some_iff.mp h
    exact .publish id session made hsession hmade
  · cases h

theorem update_moves {endpoint : Option RelayEndpoint} {stored : Bool}
    (h : s.update id endpoint stored = some s') :
    s.Moves connectable (.update id endpoint stored) s' := by
  obtain ⟨session, hidle, rfl⟩ := Option.map_eq_some_iff.mp h
  obtain ⟨hidle, hnamed⟩ := Option.filter_eq_some_iff.mp hidle
  obtain ⟨hsession, hstage, hnone⟩ := idle_eq_some hidle
  have hmem : session.stage ∈ [Stage.registered, .opening, .running] := by simp [hstage]
  split_ifs with hcurrent
  · refine .fail _ id session _ hsession hnone hmem (.inr ⟨hstage, ?_, rfl⟩)
    simpa using hcurrent
  · split
    · exact .fail _ id session s.refused hsession hnone hmem (.inl rfl)
    · next generation next halloc =>
      obtain ⟨rfl, rfl⟩ := allocateGeneration_eq_some halloc
      split
      · exact .fail _ id session s.refused hsession hnone hmem (.inl rfl)
      · next registry hregistry =>
        unfold RelayDirectoryRegistry.updateSession at hregistry
        split_ifs at hregistry with hupdate
        rw [← Option.some.inj hregistry]
        exact .update id endpoint stored session hsession hnone hstage
          (fun e he => by simpa [Option.mem_def.mp he] using hnamed) hupdate

theorem leave_moves (h : s.leave id = some s') : s.Moves connectable (.leave id) s' := by
  obtain ⟨session, hidle, rfl⟩ := Option.map_eq_some_iff.mp h
  obtain ⟨hsession, hstage, hnone⟩ := idle_eq_some hidle
  split_ifs with hcurrent
  · exact .leave id session hsession hnone hstage hcurrent
  · exact .gone _ id session hsession hnone (.inl ⟨hstage, hcurrent⟩)

theorem unregister_moves {stored : Bool} (h : s.unregister id stored = some s') :
    s.Moves connectable (.unregister id stored) s' := by
  obtain ⟨session, hidle, rfl⟩ := Option.map_eq_some_iff.mp h
  obtain ⟨hsession, hstage, hnone⟩ := idle_eq_some hidle
  dsimp only
  split_ifs with hcurrent
  · refine .gone _ id session hsession hnone (.inr ⟨hstage, stored, rfl, .inl ?_⟩)
    simpa using hcurrent
  · split
    · next halloc =>
      exact .gone _ id session hsession hnone (.inr ⟨hstage, stored, rfl, .inr halloc⟩)
    · next generation next halloc =>
      obtain ⟨rfl, rfl⟩ := allocateGeneration_eq_some halloc
      have hcurrent : s.registry.isCurrent session.relay id = true := by simpa using hcurrent
      simp only [RelayDirectoryRegistry.unregisterSession, hcurrent, if_true]
      exact .unregister id stored session hsession hnone hstage hcurrent

theorem deliver_moves (h : s.deliver connectable id = some s') :
    s.Moves connectable (.deliver id) s' := by
  unfold deliver at h
  split at h
  · cases h
  · next session hsession =>
    split at h
    · cases h
    · next directory sent hsent =>
      split at h
      · next applied happlied =>
        rw [← Option.some.inj h]
        exact .deliver id session directory applied sent hsession hsent happlied
      · rw [← Option.some.inj h]
        exact .close id session hsession

theorem step_moves (h : s.step connectable a = some s') : s.Moves connectable a s' := by
  cases a with
  | connect id relay endpoint => exact connect_moves h
  | replace id stored => exact replace_moves h
  | publish id => exact publish_moves h
  | «open» id =>
    obtain ⟨session, hidle, rfl⟩ := Option.map_eq_some_iff.mp h
    obtain ⟨hsession, hstage, hnone⟩ := idle_eq_some hidle
    exact .send _ id session hsession hnone (.inl hstage)
  | notify id =>
    obtain ⟨session, hidle, rfl⟩ := Option.map_eq_some_iff.mp h
    obtain ⟨hsession, hstage, hnone⟩ := idle_eq_some (Option.filter_eq_some_iff.mp hidle).1
    exact .send _ id session hsession hnone (.inr hstage)
  | update id endpoint stored => exact update_moves h
  | fail id =>
    obtain ⟨session, hsession, h⟩ := Option.bind_eq_some_iff.mp h
    split_ifs at h with hidle
    rw [← Option.some.inj h]
    exact .fail _ id session s.refused hsession (Option.isNone_iff_eq_none.mp hidle.1) hidle.2
      (.inl rfl)
  | leave id => exact leave_moves h
  | unregister id stored => exact unregister_moves h
  | deliver id => exact deliver_moves h
  | sign stored =>
    obtain ⟨⟨generation, next⟩, halloc, rfl⟩ := Option.map_eq_some_iff.mp h
    obtain ⟨-, rfl⟩ := allocateGeneration_eq_some halloc
    exact .sign stored

end Sys

def sampleEndpoint (id address : String) : RelayEndpoint :=
  ⟨id, address, address, samplePin '1'⟩

end FlowSplice.Server
