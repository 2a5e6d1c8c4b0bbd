import FlowSplice.Lib.Directory
import FlowSplice.Lib.Keyed
import FlowSplice.Lib.Log
import FlowSplice.Lib.Machine
import FlowSplice.Relay.Authorization

/-! The file in which a Relay or a Home keeps its authorization cache:
`flowsplice-core/src/authorization.rs` and the processes that use it. Each step is one change or
sync of the directory. -/
namespace FlowSplice.CacheFile

/-- The cache file, and the files that a process writes before it installs them. -/
inductive Name where
  | cache
  | initial (id : Uuid)
  | temporary (id : Uuid)
deriving DecidableEq, Repr

/-- A file that no cache can be read from is invalid, so is one that was not written whole. -/
inductive File where
  | cache (cache : AuthorizationCache)
  | invalid
deriving DecidableEq

abbrev Entries := Name → Option File

/-- `load_initialized_authorization_cache`. -/
def loadInitializedAuthorizationCache (entries : Entries) : Option AuthorizationCache :=
  match entries .cache with
  | some (.cache cache) => some cache
  | _ => none

/-- A Relay loads its cache before it opens its state store, a Home opens the store first. -/
inductive Follower where
  | relay
  | home
deriving DecidableEq, Repr

/-- Where a process is in `initialize_authorization_cache`. -/
inductive Initializing where
  | creating
  | linking
  | syncing
  | removing
deriving DecidableEq, Repr

/-- Where a process is in `store_json_atomic`, with the cache that it stores. -/
inductive Storing where
  | creating (id : Uuid) (proposed : AuthorizationCache)
  | replacing (id : Uuid) (proposed : AuthorizationCache)
  | syncing (id : Uuid) (proposed : AuthorizationCache)
  | removing (id : Uuid)
deriving DecidableEq

/-- A process that initializes the cache, one that starts and one that has started. A serving
process holds the lock of its cache while it stores. -/
inductive Proc where
  | initializing (id : Uuid) (phase : Initializing)
  | starting (loaded : Option AuthorizationCache)
  | serving (cache : AuthorizationCache) (storing : Option Storing)
deriving DecidableEq

/-- `opened` is the process with the state store, `drawn` are the ids that were drawn. `taken` logs
what the file held at first and what serving processes hold. -/
structure Sys where
  dir : Directory Name File
  procs : Table ℕ Proc := ∅
  opened : Option ℕ := none
  drawn : List Uuid := []
  taken : List AuthorizationCache := []

inductive Action where
  | create (pid : ℕ) (id : Uuid)
  | start (pid : ℕ)
  | enter (pid : ℕ)
  | receive (pid : ℕ) (authorization : VerifiedAuthorization) (id : Uuid)
  | go (pid : ℕ)
  | fail (pid : ℕ) (torn : Bool)
  | kill (pid : ℕ)
  | crash (keep : List Bool)

namespace Sys

def setProc (s : Sys) (pid : ℕ) (proc : Proc) : Sys :=
  { s with procs := s.procs.insert pid proc }

/-- The process makes a change and goes on. -/
def change (s : Sys) (pid : ℕ) (c : Change Name File) (proc : Proc) : Sys :=
  { s with dir := s.dir.change c, procs := s.procs.insert pid proc }

/-- The process has synced the directory and goes on. -/
def sync (s : Sys) (pid : ℕ) (proc : Proc) : Sys :=
  { s with dir := s.dir.sync, procs := s.procs.insert pid proc }

/-- The process ends, and its state store is closed. -/
def exit (s : Sys) (pid : ℕ) : Sys :=
  { s with procs := s.procs.erase pid, opened := s.opened.filter (· != pid) }

/-- The process holds the cache, which its sessions go by from now on. -/
def take (s : Sys) (pid : ℕ) (cache : AuthorizationCache) : Sys :=
  { s with procs := s.procs.insert pid (.serving cache none), taken := s.taken ++ [cache] }

/-- `initialize_authorization_cache` up to its first write: with a cache file it only reads. -/
def initializeAuthorizationCache (s : Sys) (pid : ℕ) (id : Uuid) : Option Sys :=
  if (s.procs.lookup pid).isSome ∨ id ∈ s.drawn then none
  else if (s.dir.current .cache).isSome then some s
  else some { s.setProc pid (.initializing id .creating) with drawn := id :: s.drawn }

/-- The first of the two that a process does when it starts: a Relay loads, a Home opens. -/
def start (s : Sys) (follower : Follower) (pid : ℕ) : Option Sys :=
  if (s.procs.lookup pid).isSome then none
  else match follower with
    | .relay => match loadInitializedAuthorizationCache s.dir.current with
      | none => some s
      | some cache => some (s.setProc pid (.starting (some cache)))
    | .home =>
      if s.opened.isSome then some s
      else some { s.setProc pid (.starting none) with opened := some pid }

/-- The second of the two. -/
def enter (s : Sys) (pid : ℕ) : Option Sys :=
  match s.procs.lookup pid with
  | some (.starting (some cache)) =>
    if s.opened.isSome then some (s.exit pid)
    else some { s.take pid cache with opened := some pid }
  | some (.starting none) => match loadInitializedAuthorizationCache s.dir.current with
    | none => some (s.exit pid)
    | some cache => some (s.take pid cache)
  | _ => none

/-- `apply_authorization_snapshot` of a snapshot that was verified, up to the store. -/
def applyAuthorizationSnapshot (s : Sys) (pid : ℕ) (authorization : VerifiedAuthorization)
    (id : Uuid) : Option Sys :=
  match s.procs.lookup pid with
  | some (.serving cache none) => match cache.accept authorization with
    | none => some s
    | some proposed =>
      if proposed = cache then some (s.take pid cache)
      else if id ∈ s.drawn then none
      else some { s.setProc pid (.serving cache (some (.creating id proposed))) with
        drawn := id :: s.drawn }
  | _ => none

/-- A temporary file is removed if it is there. -/
def remove (s : Sys) (pid : ℕ) (name : Name) (proc : Proc) : Sys :=
  if (s.dir.current name).isSome then s.change pid (.unlink name) proc else s.setProc pid proc

/-- The next step of `initialize_authorization_cache` succeeds, or fails for what it finds. -/
def goInitializing (s : Sys) (pid : ℕ) (id : Uuid) : Initializing → Sys
  | .creating =>
    if (s.dir.current (.initial id)).isSome then s.setProc pid (.initializing id .removing)
    else s.change pid (.link (.initial id) (.cache {})) (.initializing id .linking)
  | .linking => match s.dir.current (.initial id), s.dir.current .cache with
    | some file, none => s.change pid (.link .cache file) (.initializing id .syncing)
    | _, _ => s.setProc pid (.initializing id .removing)
  | .syncing => s.sync pid (.initializing id .removing)
  | .removing => (s.remove pid (.initial id) (.initializing id .removing)).exit pid

/-- The next step of `store_json_atomic` succeeds, or fails for what it finds. -/
def goStoring (s : Sys) (pid : ℕ) (cache : AuthorizationCache) : Storing → Sys
  | .creating id proposed =>
    if (s.dir.current (.temporary id)).isSome then
      s.setProc pid (.serving cache (some (.removing id)))
    else s.change pid (.link (.temporary id) (.cache proposed))
      (.serving cache (some (.replacing id proposed)))
  | .replacing id proposed => match s.dir.current (.temporary id) with
    | some file => s.change pid (.rename (.temporary id) .cache file)
      (.serving cache (some (.syncing id proposed)))
    | none => s.setProc pid (.serving cache (some (.removing id)))
  | .syncing _ proposed => { s with dir := s.dir.sync }.take pid proposed
  | .removing id => s.remove pid (.temporary id) (.serving cache none)

def go (s : Sys) (pid : ℕ) : Option Sys :=
  match s.procs.lookup pid with
  | some (.initializing id phase) => some (s.goInitializing pid id phase)
  | some (.serving cache (some storing)) => some (s.goStoring pid cache storing)
  | _ => none

/-- A file that could not be written whole is left, unless it was another's. -/
def tear (s : Sys) (pid : ℕ) (name : Name) (torn : Bool) (proc : Proc) : Sys :=
  if torn && (s.dir.current name).isNone then s.change pid (.link name .invalid) proc
  else s.setProc pid proc

/-- The next step of the call fails. -/
def fail (s : Sys) (pid : ℕ) (torn : Bool) : Option Sys :=
  match s.procs.lookup pid with
  | some (.initializing id .creating) =>
    some (s.tear pid (.initial id) torn (.initializing id .removing))
  | some (.initializing _ .removing) => some (s.exit pid)
  | some (.initializing id _) => some (s.setProc pid (.initializing id .removing))
  | some (.serving cache (some storing)) => some <| match storing with
    | .creating id _ => s.tear pid (.temporary id) torn (.serving cache (some (.removing id)))
    | .replacing id _ | .syncing id _ => s.setProc pid (.serving cache (some (.removing id)))
    | .removing _ => s.setProc pid (.serving cache none)
  | _ => none

def step (follower : Follower) (s : Sys) : Action → Option Sys
  | .create pid id => s.initializeAuthorizationCache pid id
  | .start pid => s.start follower pid
  | .enter pid => s.enter pid
  | .receive pid authorization id => s.applyAuthorizationSnapshot pid authorization id
  | .go pid => s.go pid
  | .fail pid torn => s.fail pid torn
  | .kill pid => if (s.procs.lookup pid).isSome then some (s.exit pid) else none
  | .crash keep => some { s with dir := s.dir.crash keep, procs := ∅, opened := none }

end Sys

/-- A directory in which no process runs. -/
def machine (follower : Follower) (entries : Entries) : Machine Sys Action where
  start :=
    { dir := { durable := entries }, taken := (loadInitializedAuthorizationCache entries).toList }
  step := Sys.step follower

end FlowSplice.CacheFile
