import FlowSplice.Lib.Keyed
import FlowSplice.Protocol

/-! The requests of a Relay that wait for an answer: `relay/src/requests.rs`, and what a Relay asks for
and is granted, of `relay/src/main.rs`. -/
namespace FlowSplice.Relay

structure TravelRouteContext where
  request : Uuid
  credential : Uuid
  travel : String
  travelSession : Uuid
  home : String
deriving DecidableEq, Repr

structure ServerGrant where
  workId : Uuid
  workSecret : Bytes
  credentialId : Uuid
  homeId : String
  expiresAtUnixSecs : ℕ
deriving DecidableEq, Repr

inductive RequestError where
  | duplicate
  | queueClosed
  | responseClosed
  | timedOut
deriving DecidableEq, Repr

/-- A registration has a token, by which it is told from a later one of its key, and which stands
for the channel of its answer. -/
structure PendingRequests (κ : Type*) [DecidableEq κ] where
  entries : Table κ ℕ := ∅

namespace PendingRequests
variable {κ : Type*} [DecidableEq κ] {requests next : PendingRequests κ} {key key' : κ}
  {token token' : ℕ}

def register (requests : PendingRequests κ) (key : κ) (token : ℕ) :
    Except RequestError (PendingRequests κ) :=
  match requests.entries.lookup key with
  | some _ => .error .duplicate
  | none => .ok ⟨requests.entries.insert key token⟩

/-- The token to whose channel the answer goes, and the requests that stay. -/
def complete (requests : PendingRequests κ) (key : κ) : Option ℕ × PendingRequests κ :=
  (requests.entries.lookup key, ⟨requests.entries.erase key⟩)

/-- The end of a `Registration`. -/
def drop (requests : PendingRequests κ) (key : κ) (token : ℕ) : PendingRequests κ :=
  if requests.entries.lookup key = some token then ⟨requests.entries.erase key⟩ else requests

/-- A key is registered once. -/
theorem register_ok (h : requests.register key token = .ok next) :
    requests.entries.lookup key = none ∧ next.entries = requests.entries.insert key token := by
  unfold register at h
  split at h
  · cases h
  · next hnone =>
    rw [← Except.ok.inj h]
    exact ⟨hnone, rfl⟩

theorem lookup_complete (h : (requests.complete key).2.entries.lookup key' = some token) :
    key' ≠ key ∧ requests.entries.lookup key' = some token :=
  Table.lookup_erase_cases h

theorem lookup_complete_ne (h : key' ≠ key) :
    (requests.complete key).2.entries.lookup key' = requests.entries.lookup key' :=
  AList.lookup_erase_ne h

/-- What stays is not of the registration that ends. -/
theorem lookup_drop (h : (requests.drop key token).entries.lookup key' = some token') :
    requests.entries.lookup key' = some token' ∧ ¬(key' = key ∧ token' = token) := by
  unfold drop at h
  split_ifs at h with hown
  · obtain ⟨hne, hl⟩ := Table.lookup_erase_cases h
    exact ⟨hl, fun heq => hne heq.1⟩
  · refine ⟨h, ?_⟩
    rintro ⟨rfl, rfl⟩
    exact hown h

/-- The end of a registration leaves every other one. -/
theorem lookup_drop_of_ne (h : requests.entries.lookup key' = some token') (hne : token' ≠ token) :
    (requests.drop key token).entries.lookup key' = some token' := by
  unfold drop
  split_ifs with hown
  · have hkey : key' ≠ key := by
      rintro rfl
      rw [h] at hown
      exact hne (Option.some.inj hown)
    rw [AList.lookup_erase_ne hkey]
    exact h
  · exact h

end PendingRequests
end FlowSplice.Relay
