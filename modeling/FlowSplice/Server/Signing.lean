import FlowSplice.Server.Reads

/-! The order of the control snapshots that a Server signs for one Travel. -/
namespace FlowSplice.Server.Travels

open Control (RelayDirectory Catalog)
open History (Read NoLater)

/-- When the clock, the authorization, the directory and the catalog were read. -/
structure Times where
  now : ℕ
  authorization : ℕ
  directory : ℕ
  catalog : ℕ
deriving DecidableEq, Repr

/-- Each read is followed by its counterpart, or is as late. -/
def Times.NotAfter (first second : Times) : Prop :=
  first.now ≤ second.now ∧ first.authorization ≤ second.authorization ∧
    first.directory ≤ second.directory ∧ first.catalog ≤ second.catalog

instance (first second : Times) : Decidable (first.NotAfter second) :=
  inferInstanceAs (Decidable (_ ∧ _))

def readTimes (basis : Basis) (directory : Read RelayDirectory) (catalog : Read Catalog) : Times where
  now := basis.now.time
  authorization := basis.authorization.time
  directory := directory.time
  catalog := catalog.time

/-- A call that is about to sign has made all its reads. -/
def Phase.times : Phase → Option Times
  | .shown basis directory catalog _ => some (readTimes basis directory catalog)
  | _ => none

def Issued.times (issued : Issued) : Times :=
  readTimes issued.basis issued.directory issued.catalog

/-- Nothing that the second snapshot was built from was replaced before what the first was built
from was current, and no revocation is lost. -/
structure NotOlder (history : List View) (first second : Issued) : Prop where
  clock : NoLater (history.map (·.clock)) first.basis.now.value second.basis.now.value
  authorization : NoLater (history.map (·.authorization)) (some first.basis.authorization.value)
    (some second.basis.authorization.value)
  directory : NoLater (history.map (·.directory)) first.directory.value second.directory.value
  catalog : NoLater (history.map (·.catalog)) first.catalog.value second.catalog.value
  revoked : first.basis.authorization.value.verified.revokedCredentials ⊆
    second.basis.authorization.value.verified.revokedCredentials

namespace Sys
variable {config : Config} {file : AuthorizationFile} {generation : ℕ} {s s' t : Sys} {a : Action}

/-- The snapshots of a Travel are ordered like what they were built from. -/
def Ordered (s : Sys) : Prop :=
  ∀ first ∈ s.issued, ∀ second ∈ s.issued, first.asked.travelId = second.asked.travelId →
    first.payload.generation < second.payload.generation → NotOlder s.history first second

/-- A call signs only while no call for its Travel has signed that read something later. -/
def inOrder (s : Sys) : Action → Prop
  | .sign i _ => ∀ call ∈ s.calls.get i, ∀ times ∈ call.phase.times, ∀ issued ∈ s.issued,
      issued.asked.travelId = call.asked.travelId → issued.times.NotAfter times
  | _ => True

instance (s : Sys) (action : Action) : Decidable (s.inOrder action) :=
  match action with
  | .sign _ _ => inferInstanceAs (Decidable (∀ _ ∈ _, _))
  | .tick _ | .authority _ | .registerHome _ _ | .updateCatalog _ _ | .removeHome _ _
  | .replaceRelay _ _ _ _ | .updateRelay _ _ _ _ | .unregisterRelay _ _ _ | .releaseTravel _ _ _
  | .pruneTravels _ | .authorize _ | .request _ | .read _ | .login _ _ | .locate _ | .list _
  | .find _ | .grant _ _ _ _ | .ready _ _ _ _ | .deliver _ | .abandon _ | .expireGrants _
  | .dropRelay _ | .revoke _ _ _ _ | .retain _ | .conclude _ => inferInstanceAs (Decidable True)

/-- Generations grow, and the snapshots of a Travel are signed in the order of their reads. -/
structure Sorted (s : Sys) : Prop where
  bound : ∀ issued ∈ s.issued, issued.payload.generation < s.nextGeneration
  sorted : s.issued.Pairwise fun first second =>
    first.payload.generation < second.payload.generation ∧
      (first.asked.travelId = second.asked.travelId → first.times.NotAfter second.times)

theorem Sorted.initial : Sorted (machine config file generation).start := by
  constructor
  · intro issued hissued
    cases hissued
  · exact .nil

/-- Nothing is signed. -/
theorem Sorted.frame (hi : s.Sorted) (hissued : s'.issued = s.issued)
    (hnext : s.nextGeneration ≤ s'.nextGeneration) : s'.Sorted := by
  constructor
  · rw [hissued]
    intro issued hm
    exact Nat.lt_of_lt_of_le (hi.bound issued hm) hnext
  · rw [hissued]
    exact hi.sorted

theorem Sorted.moves (hi : s.Sorted) (hok : s.inOrder a) (h : s.Moves config a t) : t.Sorted := by
  cases h with
  | quiet _ _ hq | advance _ _ _ _ _ hq _ _ | stop _ _ _ hq _
  | grant _ _ _ _ _ _ _ _ _ _ _ _ _ _ _ hq =>
    exact hi.frame hq.issued hq.nextGeneration
  | authority _ _ _ _ _ _ | begin _ _ _ _ | drop _ _ _ | take _ _ _ _ | deliver _ _ _ | abandon _
  | revoke _ _ _ _ _ _ _ _ _ _ _ _ _ | retain _ _ _ _ | conclude _ _ _ _ =>
    exact hi.frame rfl (Nat.le_refl _)
  | sign i _ t call basis directory catalog payload after hcall hshown _ _ _ _ hgeneration hnext =>
    have htimes : call.phase.times = some (readTimes basis directory catalog) := by
      rw [hshown]
      rfl
    have hnew : payload.generation < t.nextGeneration := by omega
    constructor
    · refine Log.forall_append (fun issued hm => ?_) hnew
      exact Nat.lt_trans (hi.bound issued hm) hnext
    · refine Log.pairwise_append hi.sorted fun issued hm => ?_
      have hlt : issued.payload.generation < payload.generation := by
        have hbound := hi.bound issued hm
        omega
      exact ⟨hlt, fun htravel => hok call hcall _ htimes issued hm htravel⟩

theorem Sorted.step (hi : s.Sorted) (hok : s.inOrder a) (h : s.step config a = some s') :
    s'.Sorted := by
  obtain ⟨t, hmoves, rfl⟩ := step_moves h
  have ht := hi.moves hok hmoves
  exact ⟨ht.bound, ht.sorted⟩

/-- Of a snapshot that was built from later reads, nothing is older. -/
theorem Tracked.notOlder {first second : Issued} (hi : s.Tracked config file)
    (hfirst : first ∈ s.issued) (hsecond : second ∈ s.issued)
    (h : first.times.NotAfter second.times) : NotOlder s.history first second := by
  obtain ⟨hnow, hauthorization, hdirectory, hcatalog⟩ := h
  have hread := hi.issued first hfirst
  have hread' := hi.issued second hsecond
  have hlater := hread.basis.authorization.noLater hread'.basis.authorization hauthorization
  have hrising : (s.history.map (·.authorization)).Pairwise fun older newer =>
      ∀ x y, older = some x → newer = some y → x.snapshot ≤ y.snapshot := by
    rw [List.pairwise_map]
    exact hi.rising
  have hsound : ∀ issued ∈ s.issued,
      issued.basis.authorization.value.Sound config.toServerConfig := fun issued hissued => by
    have hof := (hi.issued issued hissued).basis.authorization
    obtain ⟨view, hview, hvalue⟩ := List.mem_map.mp (List.mem_of_getElem? hof)
    exact (hi.views view hview _ hvalue).1
  have hle : first.basis.authorization.value.snapshot ≤
      second.basis.authorization.value.snapshot := by
    have hrel := hlater.rel (R := fun older newer => older = newer ∨
      ∀ x y, older = some x → newer = some y → x.snapshot ≤ y.snapshot)
      (hrising.imp Or.inr) (fun _ => .inl rfl)
    rcases hrel with hsame | hrel
    · rw [Option.some.inj hsame]
    · exact hrel _ _ rfl rfl
  constructor
  · exact hread.basis.now.noLater hread'.basis.now hnow
  · exact hlater
  · exact hread.directory.noLater hread'.directory hdirectory
  · exact hread.catalog.noLater hread'.catalog hcatalog
  · have hrevoked := (VerifiedAuthorization.verify_spec (hsound first hfirst).2).2.2.2
    have hrevoked' := (VerifiedAuthorization.verify_spec (hsound second hsecond).2).2.2.2
    rw [hrevoked, hrevoked']
    exact TravelAuthorizationSnapshot.revoked_subset_of_le hle

/-- Where calls sign in the order of their reads, what they sign is ordered, and shows what they
read. -/
theorem ordered_of_inOrder (config : Config) (file : AuthorizationFile) (generation : ℕ) (s : Sys)
    (h : (machine config file generation).ReachableWhere inOrder s) :
    s.Ordered ∧ ∀ issued ∈ s.issued, issued.Of config s.history := by
  have hi : s.Tracked config file := tracked_of_reachableWhere h
  have hsorted : s.Sorted := h.invariant Sorted.initial fun _ _ _ _ hi hok hs => hi.step hok hs
  constructor
  · intro first hfirst second hsecond htravel hlt
    rcases Log.rel_or_rel hsorted.sorted hfirst hsecond with hsame | hbefore | hafter
    · rw [hsame] at hlt
      exact absurd hlt (Nat.lt_irrefl _)
    · exact hi.notOlder hfirst hsecond (hbefore.2 htravel)
    · exact absurd hafter.1 (Nat.lt_asymm hlt)
  · exact hi.issued

/-- What was signed for whom, under which number, and which credentials were revoked by then. -/
def summary (s : Sys) : List (String × ℕ × Finset Uuid) :=
  s.issued.map fun issued => (issued.asked.travelId, issued.payload.generation,
    issued.basis.authorization.value.verified.revokedCredentials)

/-- A snapshot is signed before the credential is revoked, and another one after it. -/
theorem ordered_of_inOrder_revoked :
    ∃ s, (machine sampleConfig { state := {} } 1).execWhere inOrder (sampleStart ++
      [.authorize sampleAsked, .read 0, .login 0 0, .locate 0, .list 0, .sign 0 true,
        .revoke "home-1" 1 "lost" .stored, .retain 0, .conclude 0,
        .authorize sampleAsked, .read 1, .login 1 0, .locate 1, .list 1, .sign 1 true]) = some s ∧
    s.summary = [("travel-1", 3, ∅), ("travel-1", 4, {1})] ∧
    s.Ordered ∧ ∀ issued ∈ s.issued, issued.Of sampleConfig s.history := by
  have hrun : ((machine sampleConfig { state := {} } 1).execWhere inOrder (sampleStart ++
      [.authorize sampleAsked, .read 0, .login 0 0, .locate 0, .list 0, .sign 0 true,
        .revoke "home-1" 1 "lost" .stored, .retain 0, .conclude 0,
        .authorize sampleAsked, .read 1, .login 1 0, .locate 1, .list 1, .sign 1 true])).map
      summary = some [("travel-1", 3, ∅), ("travel-1", 4, {1})] := by
    decide +kernel
  obtain ⟨s, hs, heq⟩ := Option.map_eq_some_iff.mp hrun
  exact ⟨s, hs, heq, ordered_of_inOrder sampleConfig _ 1 s (Machine.reachableWhere_of_execWhere hs)⟩

/-- A call that read the authorization before the revocation signs after one that read it then. -/
theorem not_ordered_of_reachable :
    ¬ ∀ (config : Config) (file : AuthorizationFile) (generation : ℕ) (s : Sys),
      (machine config file generation).Reachable s → s.Ordered := by
  intro hall
  have hrun : ((machine sampleConfig { state := {} } 1).exec (sampleStart ++
      [.authorize sampleAsked, .read 0, .revoke "home-1" 1 "lost" .stored, .retain 0, .conclude 0,
        .authorize sampleAsked, .read 1, .login 1 0, .locate 1, .list 1, .sign 1 true,
        .login 0 0, .locate 0, .list 0, .sign 0 true])).map summary =
      some [("travel-1", 3, {1}), ("travel-1", 4, ∅)] := by
    decide +kernel
  obtain ⟨s, hs, heq⟩ := Option.map_eq_some_iff.mp hrun
  have hordered := hall _ _ _ s (Machine.reachable_of_exec hs)
  have hfirst : ("travel-1", 3, {1}) ∈ s.summary := by simp [heq]
  have hsecond : ("travel-1", 4, ∅) ∈ s.summary := by simp [heq]
  obtain ⟨first, hm, heq⟩ := List.mem_map.mp hfirst
  obtain ⟨second, hm', heq'⟩ := List.mem_map.mp hsecond
  simp only [Prod.mk.injEq] at heq heq'
  have hlt : first.payload.generation < second.payload.generation := by omega
  have hrevoked := (hordered first hm second hm' (heq.1.trans heq'.1.symm) hlt).revoked
  rw [heq.2.2, heq'.2.2] at hrevoked
  exact absurd hrevoked (by decide)

end Sys

end FlowSplice.Server.Travels
