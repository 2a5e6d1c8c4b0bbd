import Mathlib.Data.List.Sort
import FlowSplice.Lib.Keyed
import FlowSplice.Control.Snapshot

/-! The Homes and the Travel logins of the Server: `HomeRegistry` and `TravelSessionRegistry` of
`server/src/main.rs`. -/
namespace FlowSplice.Server

open Control (HomeCatalog Catalog)

/-- A session of a Home stands for the queue to it. -/
structure HomeRegistry where
  generation : ℕ := 0
  sessions : Table String Uuid := ∅
  catalogs : Table String HomeCatalog := ∅

namespace HomeRegistry
variable (registry : HomeRegistry)

/-- Homes are sorted by their id. -/
def catalog : Catalog where
  generation := registry.generation
  homes := registry.catalogs.values.insertionSort fun left right =>
    stringBytes left.homeId ≤ stringBytes right.homeId

/-- `saturating_add`. -/
def nextGeneration : ℕ := min (registry.generation + 1) (2 ^ 64 - 1)

/-- The registry, the session that was superseded, and the catalog if it changed. -/
def register (home : HomeCatalog) (sessionId : Uuid) :
    HomeRegistry × Option Uuid × Option Catalog :=
  let changed := registry.catalogs.lookup home.homeId ≠ some home
  let next : HomeRegistry :=
    { generation := if changed then registry.nextGeneration else registry.generation
      sessions := registry.sessions.insert home.homeId sessionId
      catalogs := registry.catalogs.insert home.homeId home }
  (next, registry.sessions.lookup home.homeId, if changed then some next.catalog else none)

def updateCatalog (home : HomeCatalog) (sessionId : Uuid) : HomeRegistry × Option Catalog :=
  if registry.sessions.lookup home.homeId ≠ some sessionId ∨
      registry.catalogs.lookup home.homeId = some home then (registry, none)
  else
    let next := { registry with
      generation := registry.nextGeneration
      catalogs := registry.catalogs.insert home.homeId home }
    (next, some next.catalog)

def remove (homeId : String) (sessionId : Uuid) : HomeRegistry × Option Catalog :=
  if registry.sessions.lookup homeId ≠ some sessionId then (registry, none)
  else
    let removed := { registry with sessions := registry.sessions.erase homeId }
    if (registry.catalogs.lookup homeId).isSome then
      let next := { removed with
        generation := registry.nextGeneration
        catalogs := registry.catalogs.erase homeId }
      (next, some next.catalog)
    else (removed, none)

def sender (homeId : String) : Option Uuid := registry.sessions.lookup homeId

end HomeRegistry

/-- `TRAVEL_SESSION_LEASE`. Instants are in nanoseconds. -/
def travelSessionLease : ℕ := 45 * 1000000000

/-- The leases of a login, each with the time at which it ends. -/
structure TravelSession where
  sessionId : Uuid
  leases : Table Uuid ℕ

structure TravelSessionRegistry where
  sessions : Table String TravelSession := ∅

inductive SessionError where
  | nilSession
  | otherSession
  | noSession
deriving DecidableEq, Repr

namespace TravelSessionRegistry
variable (registry : TravelSessionRegistry)

def prune (now : ℕ) : TravelSessionRegistry where
  sessions := (registry.sessions.mapValues fun _ session =>
    { session with leases := session.leases.retain fun _ expires => decide (now < expires) }).retain
      fun _ session => session.leases.len != 0

/-- The registry is pruned also where the login is refused. -/
def authorize (travelId : String) (sessionId : Uuid) (leaseId : Option Uuid) (now : ℕ) :
    Except SessionError Unit × TravelSessionRegistry :=
  let pruned := registry.prune now
  if sessionId = 0 then (.error .nilSession, pruned)
  else
    match pruned.sessions.lookup travelId, leaseId with
    | some active, leaseId =>
      if active.sessionId ≠ sessionId then (.error .otherSession, pruned)
      else
        match leaseId with
        | some leaseId =>
          let leases := active.leases.insert leaseId (now + travelSessionLease)
          (.ok (), ⟨pruned.sessions.insert travelId { active with leases := leases }⟩)
        | none => (.ok (), pruned)
    | none, none => (.error .noSession, pruned)
    | none, some leaseId =>
      let leases := (∅ : Table Uuid ℕ).insert leaseId (now + travelSessionLease)
      (.ok (), ⟨pruned.sessions.insert travelId ⟨sessionId, leases⟩⟩)

def release (travelId : String) (sessionId leaseId : Uuid) : Bool × TravelSessionRegistry :=
  match registry.sessions.lookup travelId with
  | none => (false, registry)
  | some active =>
    if active.sessionId ≠ sessionId ∨ (active.leases.lookup leaseId).isNone then (false, registry)
    else
      let leases : Table Uuid ℕ := active.leases.erase leaseId
      if Table.len leases = 0 then (true, ⟨registry.sessions.erase travelId⟩)
      else (true, ⟨registry.sessions.insert travelId { active with leases := leases }⟩)

end TravelSessionRegistry

end FlowSplice.Server
