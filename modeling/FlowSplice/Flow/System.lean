import Mathlib.Logic.Function.Basic
import FlowSplice.Lib.Machine
import FlowSplice.Flow.Travel
import FlowSplice.Flow.Home

/-! One Travel flow, the Home instances that serve it, and the Carriers between them. A Carrier
is an ordered queue in each direction. It may close at any moment, which loses a suffix of what
each queue holds; what is left is still delivered before the ends notice. Carriers run
independently of each other. -/
namespace FlowSplice.Flow

/-- A Carrier. Queue heads are delivered first. `offered` says that its OPEN is on the way to
Home, `spawned` that Travel's pump runs, so that frames reach `handle_event`. -/
structure Link where
  toHome : List DataFrame := []
  toTravel : List DataFrame := []
  up : Bool := false
  offered : Bool := false
  spawned : Bool := false
deriving DecidableEq, Repr

/-- The part of `sent` that was queued on one Carrier. -/
def Sends.on (sent : Sends) (carrierId : Uuid) : List DataFrame :=
  (sent.filter (·.1 = carrierId)).map (·.2)

namespace Link

/-- A closed Carrier drops what it is given. -/
def pushHome (l : Link) (frames : List DataFrame) : Link :=
  if l.up then { l with toHome := l.toHome ++ frames } else l

def pushTravel (l : Link) (frames : List DataFrame) : Link :=
  if l.up then { l with toTravel := l.toTravel ++ frames } else l

end Link

/-- `past` holds the Home instances that have ended and were replaced by a fresh one. Uuids are
drawn from a counter, so that they never repeat. `homeSent` logs the frames Home sent. -/
structure Sys where
  travel : Travel
  home : Home
  past : List Home := []
  links : Uuid → Link := fun _ => {}
  fresh : Uuid := 0
  homeSent : List DataFrame := []

/-- What `run_io` and `attach` are given: the flow id and the configured limits. -/
structure Config where
  flowId : Uuid
  travelMaxUnackedBytes : ℕ
  homeMaxUnackedBytes : ℕ

def Config.home (config : Config) : Home :=
  { flowId := config.flowId, maxUnackedBytes := config.homeMaxUnackedBytes }

def Config.start (config : Config) : Sys where
  travel := { transfer :=
    { flowId := config.flowId, maxUnackedBytes := config.travelMaxUnackedBytes } }
  home := config.home

inductive Action where
  | travelFinish (drained : Bool)
  | travelRace (opens : ℕ)
  | travelSelect
  | travelReevaluate
  | travelRecoveryExpired
  | travelStop
  | travelOpened (carrierId : Uuid)
  | travelOpenFailed (carrierId : Uuid)
  | travelDeadline
  | travelLocalData (bytes : Bytes)
  | travelLocalEof
  | travelLocalError (reason : String)
  | travelFrame (carrierId : Uuid) (io : Io)
  | travelCarrierClosed (carrierId : Uuid)
  | homeRespawn (carrierId : Uuid)
  | homeAttach (carrierId : Uuid) (written : Bool)
  | homeTargetData (bytes : Bytes)
  | homeTargetEof
  | homeFrame (carrierId : Uuid) (io : Io)
  | homeCarrierClosed (carrierId : Uuid)
  | homeFinish (drained : Bool)
  | homeStop (reason : String)
  | close (carrierId : Uuid) (toHome toTravel : ℕ)
deriving DecidableEq, Repr

namespace Sys

/-- A step of Travel: its sends go to the Carriers. -/
def withTravel (s : Sys) (r : Travel × Sends) : Sys :=
  { s with travel := r.1, links := fun c => (s.links c).pushHome (r.2.on c) }

/-- A step of Home: its frames go to one Carrier. -/
def withHome (s : Sys) (carrierId : Option Uuid) (r : Home × List DataFrame) : Sys :=
  { s with
    home := r.1
    links := fun c => if carrierId = some c then (s.links c).pushTravel r.2 else s.links c
    homeSent := s.homeSent ++ r.2 }

def setLink (s : Sys) (carrierId : Uuid) (l : Link) : Sys :=
  { s with links := Function.update s.links carrierId l }

/-- The Carriers that a race opens, numbered from `first`. -/
def opening (first count : ℕ) : List Uuid := (List.range count).map (first + ·)

def offer (s : Sys) (opens : List Uuid) : Sys :=
  { s with links := fun c => if c ∈ opens then { up := true, offered := true } else s.links c }

/-- A frame that is on its way to Travel's `handle_event`. -/
def travelFrame (s : Sys) (carrierId : Uuid) (io : Io) : Option Sys :=
  let l := s.links carrierId
  match l.spawned, l.toTravel with
  | true, f :: rest =>
    (s.travel.event (.carrierFrame carrierId f) io).map
      (s.setLink carrierId { l with toTravel := rest }).withTravel
  | _, _ => none

/-- The OPEN_OK of a Carrier that Travel opens. -/
def travelOpened (s : Sys) (carrierId : Uuid) : Option Sys :=
  let l := s.links carrierId
  match l.toTravel with
  | .openOk flowId id receiveOffset _ _ :: rest =>
    if flowId = s.travel.transfer.flowId ∧ id = carrierId then
      (s.travel.opened carrierId receiveOffset).map
        (s.setLink carrierId { l with toTravel := rest, spawned := true }).withTravel
    else none
  | _ => none

def travelCarrierClosed (s : Sys) (carrierId : Uuid) : Option Sys :=
  let l := s.links carrierId
  if l.spawned ∧ ¬ l.up ∧ l.toTravel = [] then
    (s.travel.event (.carrierClosed carrierId) .done).map
      (s.setLink carrierId { l with spawned := false }).withTravel
  else none

/-- `attach` finds no live instance for the flow and creates one. -/
def homeRespawn (s : Sys) (carrierId : Uuid) : Option Sys :=
  if (s.links carrierId).offered ∧ s.home.phase ≠ .running then
    some { s with
      past := s.past ++ [s.home]
      home := { flowId := s.home.flowId, maxUnackedBytes := s.home.maxUnackedBytes } }
  else none

/-- `attach` has queued the Carrier for the instance, which takes it. -/
def homeAttach (s : Sys) (carrierId : Uuid) (written : Bool) : Option Sys :=
  let l := s.links carrierId
  if l.offered then
    (s.home.attach carrierId written).map
      ((s.setLink carrierId { l with offered := false }).withHome (some carrierId))
  else none

def homeFrame (s : Sys) (carrierId : Uuid) (io : Io) : Option Sys :=
  let l := s.links carrierId
  match l.toHome with
  | f :: rest =>
    if carrierId ∈ s.home.carriers then
      (s.home.frame io carrierId f).map
        ((s.setLink carrierId { l with toHome := rest }).withHome (some carrierId))
    else none
  | [] => none

def homeCarrierClosed (s : Sys) (carrierId : Uuid) : Option Sys :=
  let l := s.links carrierId
  if carrierId ∈ s.home.carriers ∧ ¬ l.up ∧ l.toHome = [] then
    (s.home.carrierClosed carrierId).map fun h => { s with home := h }
  else none

/-- The link closes and keeps the first few frames of each queue. -/
def close (s : Sys) (carrierId : Uuid) (toHome toTravel : ℕ) : Option Sys :=
  let l := s.links carrierId
  if l.up then
    some (s.setLink carrierId { l with
      up := false, toHome := l.toHome.take toHome, toTravel := l.toTravel.take toTravel })
  else none

/-- A chunk that a socket reader can yield. -/
def Readable (bytes : Bytes) : Prop := bytes ≠ [] ∧ bytes.length ≤ maxDataPayload

instance (bytes : Bytes) : Decidable (Readable bytes) := inferInstanceAs (Decidable (_ ∧ _))

def step (s : Sys) : Action → Option Sys
  | .travelFinish drained => (s.travel.finish drained).map s.withTravel
  | .travelRace count =>
    let opens := opening (s.fresh + 1) count
    (s.travel.beginRace s.fresh opens).map fun r =>
      { (s.offer opens).withTravel r with fresh := s.fresh + 1 + count }
  | .travelSelect => s.travel.select.map s.withTravel
  | .travelReevaluate => s.travel.reevaluate.map s.withTravel
  | .travelRecoveryExpired => s.travel.recoveryExpired.map s.withTravel
  | .travelStop => s.travel.stop.map s.withTravel
  | .travelOpened carrierId => s.travelOpened carrierId
  | .travelOpenFailed carrierId => (s.travel.openFailed carrierId).map s.withTravel
  | .travelDeadline => s.travel.deadline.map s.withTravel
  | .travelLocalData bytes =>
    if Readable bytes ∧ ¬ s.travel.transfer.localEof then
      (s.travel.event (.localData bytes) .done).map s.withTravel
    else none
  | .travelLocalEof =>
    if s.travel.transfer.localEof then none
    else (s.travel.event .localEof .done).map s.withTravel
  | .travelLocalError reason =>
    if s.travel.transfer.localEof then none
    else (s.travel.event (.localError reason) .done).map s.withTravel
  | .travelFrame carrierId io => s.travelFrame carrierId io
  | .travelCarrierClosed carrierId => s.travelCarrierClosed carrierId
  | .homeRespawn carrierId => s.homeRespawn carrierId
  | .homeAttach carrierId written => s.homeAttach carrierId written
  | .homeTargetData bytes =>
    if Readable bytes ∧ ¬ s.home.targetEof then
      (s.home.targetData bytes).map (s.withHome s.home.activeCarrier)
    else none
  | .homeTargetEof =>
    if s.home.targetEof then none
    else s.home.targetEnd.map (s.withHome s.home.activeCarrier)
  | .homeFrame carrierId io => s.homeFrame carrierId io
  | .homeCarrierClosed carrierId => s.homeCarrierClosed carrierId
  | .homeFinish drained => (s.home.finish drained).map fun h => { s with home := h }
  | .homeStop reason => (s.home.stop reason).map fun h => { s with home := h }
  | .close carrierId toHome toTravel => s.close carrierId toHome toTravel

end Sys

/-- The runs of a flow. -/
def machine (config : Config) : Machine Sys Action where
  start := config.start
  step := Sys.step

end FlowSplice.Flow
