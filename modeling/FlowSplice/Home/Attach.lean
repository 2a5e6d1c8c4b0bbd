import FlowSplice.Lib.Keyed
import FlowSplice.Protocol

/-! The flows of a Home and their permits: `TcpFlowRegistry` of
`flowsplice-home-core/src/tcp_flow.rs`. -/
namespace FlowSplice

structure FlowKey where
  credentialId : Uuid
  travelId : String
  flowId : Uuid
deriving DecidableEq, Repr

/-- A flow that is no longer `receiving` has dropped its end of the channel but is not yet
removed. -/
structure FlowHandle where
  instanceId : Uuid
  serviceId : String
  receiving : Bool := true
deriving DecidableEq, Repr

/-- A handle with the permits of its flow that are left. -/
structure LimitedFlow extends FlowHandle where
  carrierSlots : ℕ
deriving DecidableEq, Repr

/-- The permits are those that are left. `connections` lists the flows that have called
`connect_tcp`, and a stopped runtime spawns no task. -/
structure TcpFlowRegistry where
  flows : Table FlowKey LimitedFlow := ∅
  permits : ℕ
  carrierPermits : ℕ
  maxCarriersPerFlow : ℕ
  stopped : Bool := false
  connections : List Uuid := []

inductive AttachError where
  | changedServices
  | activeFlowLimit
  | runtimeStopped
  | activeCarrierLimit
  | flowCarrierLimit
  | flowClosed
deriving DecidableEq, Repr

def AttachError.message : AttachError → String
  | .changedServices => "flow attempted to change services"
  | .activeFlowLimit => "home active-flow limit reached"
  | .runtimeStopped => "Home runtime is stopped"
  | .activeCarrierLimit => "home active-Carrier limit reached"
  | .flowCarrierLimit => "home per-flow Carrier limit reached"
  | .flowClosed => "home flow closed while attaching carrier"

/-- How far the task of a new flow has come when the Carrier is sent to it. A task whose
authorization has ended does not connect. -/
inductive FlowProgress where
  | spawned
  | connecting
  | ended (connected : Bool)
  | removed (connected : Bool)
deriving DecidableEq, Repr

def FlowProgress.connects : FlowProgress → Bool
  | .spawned => false
  | .connecting => true
  | .ended connected => connected
  | .removed connected => connected

def FlowProgress.isEnded : FlowProgress → Bool
  | .spawned | .connecting => false
  | .ended _ | .removed _ => true

/-- The call of `attach`. A new flow draws its instance id. -/
structure AttachCall where
  key : FlowKey
  serviceId : String
  instanceId : Uuid
deriving DecidableEq, Repr

namespace TcpFlowRegistry
variable (registry : TcpFlowRegistry)

def remove (key : FlowKey) (instanceId : Uuid) : TcpFlowRegistry :=
  match registry.flows.lookup key with
  | none => registry
  | some flow =>
    if flow.instanceId = instanceId then { registry with flows := registry.flows.erase key }
    else registry

def newHandle (call : AttachCall) : LimitedFlow where
  instanceId := call.instanceId
  serviceId := call.serviceId
  carrierSlots := registry.maxCarriersPerFlow

/-- With the flow of the call, which has taken its permit. -/
def withFlow (call : AttachCall) : TcpFlowRegistry :=
  { registry with
    flows := registry.flows.insert call.key (registry.newHandle call)
    permits := registry.permits - 1 }

/-- The flow is inserted before its task is spawned. The task owns the permit. -/
def spawn (call : AttachCall) : Except AttachError Unit × TcpFlowRegistry :=
  if registry.permits = 0 then (.error .activeFlowLimit, registry)
  else
    let inserted := registry.flows.insert call.key (registry.newHandle call)
    if registry.stopped then
      let kept := Table.retain inserted fun _ flow => flow.instanceId != call.instanceId
      (.error .runtimeStopped, { registry with flows := kept })
    else (.ok (), registry.withFlow call)

/-- What the task of the flow does meanwhile: it connects to the target, and where it ends it
drops its receiver, then its permit, and then removes the flow. -/
def runTask (call : AttachCall) (progress : FlowProgress) : TcpFlowRegistry :=
  let connected := { registry with
    connections :=
      if progress.connects then call.instanceId :: registry.connections else registry.connections }
  match progress with
  | .spawned | .connecting => connected
  | .ended _ => { connected with
      flows := registry.flows.insert call.key { registry.newHandle call with receiving := false }
      permits := registry.permits + 1 }
  | .removed _ => { connected with permits := registry.permits + 1 }.remove call.key call.instanceId

/-- The Carrier takes its two permits and is sent to the flow. A rejected Carrier drops them. -/
def sendCarrier (key : FlowKey) (handle : LimitedFlow) :
    Except AttachError Unit × TcpFlowRegistry :=
  if registry.carrierPermits = 0 then (.error .activeCarrierLimit, registry)
  else if handle.carrierSlots = 0 then (.error .flowCarrierLimit, registry)
  else if handle.receiving = false then (.error .flowClosed, registry)
  else (.ok (), { registry with
    carrierPermits := registry.carrierPermits - 1
    flows := registry.flows.insert key { handle with carrierSlots := handle.carrierSlots - 1 } })

def attach (call : AttachCall) (progress : FlowProgress) :
    Except AttachError Unit × TcpFlowRegistry :=
  match registry.flows.lookup call.key with
  | some existing =>
    if existing.serviceId ≠ call.serviceId then (.error .changedServices, registry)
    else registry.sendCarrier call.key existing
  | none =>
    match registry.spawn call with
    | (.error error, next) => (.error error, next)
    | (.ok (), started) =>
      (started.runTask call progress).sendCarrier call.key
        { registry.newHandle call with receiving := !progress.isEnded }

/-- The same flows, permits and target connections. -/
def Same (next : TcpFlowRegistry) : Prop :=
  (∀ key, next.flows.lookup key = registry.flows.lookup key) ∧
    next.permits = registry.permits ∧ next.carrierPermits = registry.carrierPermits ∧
    next.connections = registry.connections

/-- A call that fails leaves the flows, the permits and the target connections as they were. -/
def AtomicOnError (call : AttachCall) (progress : FlowProgress) : Prop :=
  ∀ error next, registry.attach call progress = (.error error, next) → registry.Same next

/-- The call starts a flow. -/
def Starts (call : AttachCall) : Prop :=
  registry.flows.lookup call.key = none ∧ registry.permits ≠ 0 ∧ registry.stopped = false

/-- The first Carrier of a new flow cannot be handed to it. -/
def RejectsFirst (progress : FlowProgress) : Prop :=
  registry.carrierPermits = 0 ∨ registry.maxCarriersPerFlow = 0 ∨ progress.isEnded = true

variable {registry} {call : AttachCall} {progress : FlowProgress} {key : FlowKey}
  {handle : LimitedFlow} {error : AttachError} {next : TcpFlowRegistry}

theorem sendCarrier_error (h : registry.sendCarrier key handle = (.error error, next)) :
    next = registry := by
  unfold sendCarrier at h
  split_ifs at h <;> cases h <;> rfl

theorem sendCarrier_isError :
    (∃ error, (registry.sendCarrier key handle).1 = .error error) ↔
      registry.carrierPermits = 0 ∨ handle.carrierSlots = 0 ∨ handle.receiving = false := by
  unfold sendCarrier
  by_cases hglobal : registry.carrierPermits = 0
  · simp [hglobal]
  · by_cases hslots : handle.carrierSlots = 0
    · simp [hglobal, hslots]
    · by_cases hopen : handle.receiving = false <;> simp [hglobal, hslots, hopen]

/-- A task that cannot be spawned leaves nothing behind. -/
theorem spawn_error (hfresh : ∀ key handle, registry.flows.lookup key = some handle →
      handle.instanceId ≠ call.instanceId)
    (hnew : registry.flows.lookup call.key = none)
    (h : registry.spawn call = (.error error, next)) : registry.Same next := by
  unfold spawn at h
  dsimp only at h
  split_ifs at h with hpermits hstopped
  · cases h
    exact ⟨fun _ => rfl, rfl, rfl, rfl⟩
  · cases h
    refine ⟨fun key => ?_, rfl, rfl, rfl⟩
    show (Table.retain _ _).lookup key = _
    rw [Table.lookup_retain]
    by_cases hkey : key = call.key
    · subst hkey
      rw [AList.lookup_insert, hnew]
      exact Option.filter_some_neg (by simp [newHandle])
    · rw [AList.lookup_insert_ne hkey]
      cases hlookup : registry.flows.lookup key with
      | none => rfl
      | some handle =>
        exact Option.filter_some_pos (bne_iff_ne.mpr (hfresh key handle hlookup))
  · cases h

theorem spawn_ok (h : registry.spawn call = (.ok (), next)) :
    registry.permits ≠ 0 ∧ registry.stopped = false ∧ next = registry.withFlow call := by
  unfold spawn at h
  dsimp only at h
  split_ifs at h with hpermits hstopped
  · cases h
  · cases h
  · cases h
    exact ⟨hpermits, Bool.eq_false_of_not_eq_true hstopped, rfl⟩

theorem spawn_of_starts (h : registry.Starts call) :
    registry.spawn call = (.ok (), registry.withFlow call) := by
  have hstopped : ¬ registry.stopped = true := by simp [h.2.2]
  unfold spawn
  rw [if_neg h.2.1]
  dsimp only
  rw [if_neg hstopped]

theorem withFlow_lookup : (registry.withFlow call).flows.lookup call.key =
    some (registry.newHandle call) :=
  AList.lookup_insert _

theorem runTask_removed (connected : Bool) :
    (registry.withFlow call).runTask call (.removed connected) =
      { registry with
        flows := (registry.withFlow call).flows.erase call.key
        permits := registry.permits - 1 + 1
        connections :=
          if connected then call.instanceId :: registry.connections else registry.connections } := by
  unfold runTask remove
  dsimp only
  rw [withFlow_lookup]
  dsimp only
  rw [if_pos (show (registry.newHandle call).instanceId = call.instanceId from rfl)]
  rfl

/-- The flow that a call starts is gone again, without a trace, only when its task was removed
before it connected. -/
theorem same_runTask_iff (h : registry.Starts call) :
    registry.Same ((registry.withFlow call).runTask call progress) ↔
      progress = .removed false := by
  constructor
  · intro hsame
    have hflows := hsame.1 call.key
    rw [h.1] at hflows
    cases progress with
    | spawned => cases withFlow_lookup.symm.trans hflows
    | connecting => cases withFlow_lookup.symm.trans hflows
    | ended connected =>
      have hended : ((registry.withFlow call).runTask call (.ended connected)).flows.lookup
          call.key = some { registry.newHandle call with receiving := false } :=
        AList.lookup_insert _
      cases hended.symm.trans hflows
    | removed connected =>
      cases connected with
      | false => rfl
      | true =>
        have hconnections := hsame.2.2.2
        rw [runTask_removed] at hconnections
        exact absurd hconnections (List.cons_ne_self _ _)
  · intro hprogress
    subst hprogress
    rw [runTask_removed]
    have hpermits := h.2.1
    refine ⟨fun key => ?_, ?_, rfl, rfl⟩
    · by_cases hkey : key = call.key
      · subst hkey
        exact (AList.lookup_erase _ _).trans h.1.symm
      · exact (AList.lookup_erase_ne hkey).trans (AList.lookup_insert_ne hkey)
    · show registry.permits - 1 + 1 = registry.permits
      omega

theorem attach_of_starts (h : registry.Starts call) :
    registry.attach call progress =
      ((registry.withFlow call).runTask call progress).sendCarrier call.key
        { registry.newHandle call with receiving := !progress.isEnded } := by
  unfold attach
  rw [h.1, spawn_of_starts h]

theorem runTask_carrierPermits :
    (registry.runTask call progress).carrierPermits = registry.carrierPermits := by
  cases progress with
  | removed connected =>
    unfold runTask remove
    dsimp only
    split
    · rfl
    · split_ifs <;> rfl
  | _ => rfl

/-- A call that starts no flow leaves nothing behind. -/
theorem same_of_not_starts (hfresh : ∀ key handle, registry.flows.lookup key = some handle →
      handle.instanceId ≠ call.instanceId)
    (hstarts : ¬ registry.Starts call) : registry.AtomicOnError call progress := by
  intro error next h
  unfold attach at h
  split at h
  next existing hexisting =>
    split_ifs at h with hservice
    · cases h
      exact ⟨fun _ => rfl, rfl, rfl, rfl⟩
    · rw [sendCarrier_error h]
      exact ⟨fun _ => rfl, rfl, rfl, rfl⟩
  next hnew =>
    split at h
    next failure rest hspawn =>
      cases h
      exact spawn_error hfresh hnew hspawn
    next started hspawn =>
      have hok := spawn_ok hspawn
      exact absurd ⟨hnew, hok.1, hok.2.1⟩ hstarts

/-- `attach` is atomic except where it starts a flow and then cannot hand over its Carrier: such a
flow keeps its permit and its target connection, unless its task was over before it connected. -/
theorem atomicOnError_iff (hfresh : ∀ key handle, registry.flows.lookup key = some handle →
      handle.instanceId ≠ call.instanceId) :
    registry.AtomicOnError call progress ↔
      ¬ (registry.Starts call ∧ registry.RejectsFirst progress) ∨ progress = .removed false := by
  by_cases hstarts : registry.Starts call
  · have hattach := @attach_of_starts registry call progress hstarts
    have hcarriers : ((registry.withFlow call).runTask call progress).carrierPermits =
        registry.carrierPermits := runTask_carrierPermits
    have hrejects : (∃ error, (registry.attach call progress).1 = .error error) ↔
        registry.RejectsFirst progress := by
      rw [hattach, sendCarrier_isError, hcarriers]
      unfold RejectsFirst
      simp [newHandle]
    constructor
    · intro hatomic
      by_cases hreject : registry.RejectsFirst progress
      · obtain ⟨error, herror⟩ := hrejects.mpr hreject
        have hsame : registry.Same (registry.attach call progress).2 :=
          hatomic error _ (Prod.ext herror rfl)
        have hleft : (registry.attach call progress).2 =
            (registry.withFlow call).runTask call progress := by
          rw [hattach] at herror ⊢
          exact sendCarrier_error (Prod.ext herror rfl)
        rw [hleft] at hsame
        exact .inr ((same_runTask_iff hstarts).mp hsame)
      · exact .inl fun h => hreject h.2
    · intro hcondition error next h
      have hreject : registry.RejectsFirst progress := hrejects.mp ⟨error, by rw [h]⟩
      have hprogress : progress = .removed false :=
        hcondition.resolve_left (not_not.mpr ⟨hstarts, hreject⟩)
      rw [hattach] at h
      rw [sendCarrier_error h]
      exact (same_runTask_iff hstarts).mpr hprogress
  · constructor
    · intro _
      exact .inl fun h => hstarts h.1
    · intro _
      exact same_of_not_starts hfresh hstarts

/-- An empty registry, and a flow with a Carrier. -/
theorem atomicOnError_existing :
    let registry : TcpFlowRegistry := {
      flows := (∅ : Table FlowKey LimitedFlow).insert ⟨1, "laptop", 7⟩ ⟨⟨4, "echo", true⟩, 0⟩
      permits := 3, carrierPermits := 3, maxCarriersPerFlow := 1 }
    registry.AtomicOnError ⟨⟨1, "laptop", 7⟩, "echo", 5⟩ .spawned := by
  intro registry
  have hfresh : ∀ key handle, registry.flows.lookup key = some handle → handle.instanceId ≠ 5 := by
    intro key handle hlookup
    rcases Table.lookup_insert_cases hlookup with hsame | hother
    · rw [hsame.2]
      decide
    · cases hother.2
  have hexisting : ¬ registry.Starts ⟨⟨1, "laptop", 7⟩, "echo", 5⟩ := fun h => by cases h.1
  exact (atomicOnError_iff hfresh).mpr (.inl fun h => hexisting h.1)

/-- The first Carrier of a new flow is refused for want of a Carrier permit: the flow stays, with
its permit and its target connection. -/
theorem not_atomicOnError_first :
    let registry : TcpFlowRegistry := { permits := 2, carrierPermits := 0, maxCarriersPerFlow := 1 }
    ¬ registry.AtomicOnError ⟨⟨1, "laptop", 7⟩, "echo", 5⟩ .connecting := by
  intro registry hatomic
  have hsame := hatomic .activeCarrierLimit _ rfl
  cases hsame.2.1

end TcpFlowRegistry
end FlowSplice
