import FlowSplice.Lib.Keyed
import FlowSplice.Lib.Machine
import FlowSplice.Lib.Slots
import FlowSplice.Mappings.Set

/-! Calls of `upsert_mapping` and `delete_mapping` in any order, each dropped at any await: the
mappings in the database and in memory, the table of listener tasks, and the tasks themselves. -/
namespace FlowSplice.Mappings

/-- Where a call waits. From `locked` to `stopping` it holds `mapping_operation`. -/
inductive Phase where
  | queued
  | locked
  | binding (change : Change)
  | persisting (change : Change) (write : ℕ)
  | storing (change : Change) (task : Option ℕ)
  | publishing (change : Change) (old : Option ℕ)
  | stopping (answer : Mapping) (old : ℕ)
  | returned (result : Except MappingError Mapping)
  | dropped
deriving DecidableEq, Repr

structure Operation where
  request : Request
  phase : Phase := .queued
deriving DecidableEq, Repr

inductive Outcome where
  | pending
  | committed
  | failed (reason : String)
deriving DecidableEq, Repr

/-- What `spawn_blocking` was given, and how it ended. It ends also when its caller is gone. -/
structure Write where
  operation : ℕ
  mappings : List Mapping
  outcome : Outcome := .pending
deriving DecidableEq, Repr

/-- A task of `supervise_mapping_listener`. `told` is its shutdown, which is also what it sees when
the sender is dropped. -/
structure Listener where
  mapping : Mapping
  told : Bool := false
deriving DecidableEq, Repr

/-- `touched` is for statements: the calls that have changed the mappings, the table or a task. -/
structure Sys where
  durable : List Mapping
  mappings : List Mapping
  tasks : Table String ℕ := ∅
  listeners : Slots Listener := {}
  lock : Option ℕ := none
  operations : Slots Operation := {}
  writes : Slots Write := {}
  touched : List ℕ := []

inductive Action where
  | call (request : Request)
  | lock (i : ℕ)
  | read (i : ℕ)
  | bound (i : ℕ) (failure : Option String)
  | written (w : ℕ) (failure : Option String)
  | resume (i : ℕ)
  | store (i : ℕ)
  | publish (i : ℕ)
  | stopped (i : ℕ)
  | listenerEnds (t : ℕ)
  | drop (i : ℕ)
deriving DecidableEq, Repr

namespace Sys

variable (config : Config) (s : Sys)

def setPhase (i : ℕ) (operation : Operation) (phase : Phase) : Sys :=
  { s with operations := s.operations.set i (some { operation with phase }) }

/-- The call returns, and releases the lock. -/
def finish (i : ℕ) (operation : Operation) (result : Except MappingError Mapping) : Sys :=
  { s.setPhase i operation (.returned result) with lock := none }

/-- `persist_runtime_mappings` is handed to a thread. -/
def persist (i : ℕ) (operation : Operation) (change : Change) : Sys :=
  { s.setPhase i operation (.persisting change s.writes.next) with
    writes := s.writes.push { operation := i, mappings := change.next } }

/-- The shutdown of a task is sent, or its sender is dropped. -/
def tell (task : Option ℕ) : Sys :=
  match task with
  | none => s
  | some t =>
    match s.listeners.get t with
    | none => s
    | some listener =>
      { s with listeners := s.listeners.set t (some { listener with told := true }) }

def read (i : ℕ) (operation : Operation) : Sys :=
  match change config s.mappings operation.request with
  | .error error => s.finish i operation (.error error)
  | .ok none =>
    match operation.request with
    | .upsert mapping => s.finish i operation (.ok mapping)
    | .delete .. => s
  | .ok (some change) =>
    match operation.request with
    | .upsert _ => s.setPhase i operation (.binding change)
    | .delete .. => s.persist i operation change

/-- After the write: a mapping that is set gets its task, before the next await. -/
def resume (i : ℕ) (operation : Operation) (change : Change) : Sys :=
  match operation.request with
  | .upsert mapping =>
    { s.setPhase i operation (.storing change (some s.listeners.next)) with
      listeners := s.listeners.push { mapping } }
  | .delete .. => s.setPhase i operation (.storing change none)

/-- `mapping_tasks` is changed, and the task that was there is kept to be stopped. -/
def store (i : ℕ) (operation : Operation) (change : Change) (task : Option ℕ) : Sys :=
  let key := operation.request.key
  { s.setPhase i operation (.publishing change (s.tasks.lookup key)) with
    tasks := match task with
      | some t => s.tasks.insert key t
      | none => s.tasks.erase key }

/-- `mappings` is replaced, and the old task is told to end and waited for. -/
def publish (i : ℕ) (operation : Operation) (change : Change) (old : Option ℕ) : Sys :=
  let s := { s with mappings := change.next }
  match old with
  | none => s.finish i operation (.ok change.answer)
  | some t => (s.tell (some t)).setPhase i operation (.stopping change.answer t)

/-- What a call owns is dropped with it. -/
def dropCall (i : ℕ) (operation : Operation) : Option Sys :=
  let gone (s : Sys) : Sys :=
    { s.setPhase i operation .dropped with lock := if s.lock = some i then none else s.lock }
  match operation.phase with
  | .returned _ | .dropped => none
  | .storing _ task => some (gone (s.tell task))
  | .publishing _ old => some (gone (s.tell old))
  | _ => some (gone s)

def act : Action → Option Sys
  | .call request => some { s with operations := s.operations.push { request } }
  | .lock i =>
    match s.operations.get i with
    | some operation =>
      if operation.phase = .queued ∧ s.lock = none then
        some { s.setPhase i operation .locked with lock := some i }
      else none
    | none => none
  | .read i =>
    match s.operations.get i with
    | some operation => if operation.phase = .locked then some (s.read config i operation) else none
    | none => none
  | .bound i failure =>
    match s.operations.get i with
    | some operation =>
      match operation.phase with
      | .binding change =>
        match failure with
        | some reason => some (s.finish i operation (.error (.bindFailed reason)))
        | none => some (s.persist i operation change)
      | _ => none
    | none => none
  | .written w failure =>
    match s.writes.get w with
    | some write =>
      if write.outcome = .pending then
        match failure with
        | none => some { s with
            durable := write.mappings
            writes := s.writes.set w (some { write with outcome := .committed }) }
        | some reason => some { s with
            writes := s.writes.set w (some { write with outcome := .failed reason }) }
      else none
    | none => none
  | .resume i =>
    match s.operations.get i with
    | some operation =>
      match operation.phase with
      | .persisting change w =>
        match (s.writes.get w).map Write.outcome with
        | some .committed => some (s.resume i operation change)
        | some (.failed reason) => some (s.finish i operation (.error (.persistFailed reason)))
        | _ => none
      | _ => none
    | none => none
  | .store i =>
    match s.operations.get i with
    | some operation =>
      match operation.phase with
      | .storing change task => some (s.store i operation change task)
      | _ => none
    | none => none
  | .publish i =>
    match s.operations.get i with
    | some operation =>
      match operation.phase with
      | .publishing change old => some (s.publish i operation change old)
      | _ => none
    | none => none
  | .stopped i =>
    match s.operations.get i with
    | some operation =>
      match operation.phase with
      | .stopping answer old =>
        if s.listeners.get old = none then some (s.finish i operation (.ok answer)) else none
      | _ => none
    | none => none
  | .listenerEnds t =>
    match s.listeners.get t with
    | some listener =>
      if listener.told then some { s with listeners := s.listeners.set t none } else none
    | none => none
  | .drop i => (s.operations.get i).bind (s.dropCall i)

/-- The call whose step this is. A task ends by itself. -/
def actor : Action → Option ℕ
  | .call _ | .listenerEnds _ => none
  | .written w _ => (s.writes.get w).map (·.operation)
  | .lock i | .read i | .bound i _ | .resume i | .store i | .publish i | .stopped i | .drop i =>
    some i

/-- A call that has changed something is noted. -/
def note (next : Sys) (actor : Option ℕ) : Sys :=
  if next.durable = s.durable ∧ next.mappings = s.mappings ∧ next.tasks.entries = s.tasks.entries ∧
      next.listeners = s.listeners then next
  else { next with touched := actor.toList ++ next.touched }

def step (a : Action) : Option Sys := (s.act config a).map fun next => s.note next (s.actor a)

/-- The state after `start_initial_mapping_listeners`. -/
def start (mappings : List Mapping) : Sys where
  durable := mappings
  mappings := mappings
  tasks := Table.insertAll ∅ (mappings.zipIdx.map fun m => (mappingKey m.1, m.2))
  listeners := ({} : Slots Listener).pushAll (mappings.map fun mapping => { mapping })

end Sys

/-- Travel with the mappings that it has loaded. -/
def machine (config : Config) (mappings : List Mapping) : Machine Sys Action where
  start := .start mappings
  step := Sys.step config

end FlowSplice.Mappings
