import FlowSplice.Lib.Keyed
import FlowSplice.Control.Apply

/-! The Relay history on disk follows the one in memory, as long as no record is written after a
later change of it has been: `record_relay_success` and `record_relay_failure` write a clone that
they took before, and do not hold `relay_history` for it. -/
namespace FlowSplice.Control

/-- The record of a Relay on disk. -/
def Store.record (store : Store) (relayId : String) : Option RelayHistoryRecord :=
  (store.relayHistory.find? (·.1 == relayId)).map (·.2)

/-- A table has one row for each key. -/
def Store.Unique (store : Store) : Prop := (store.relayHistory.map Prod.fst).Nodup

/-- The record of a Relay in memory. -/
def Process.record (p : Process) (relayId : String) : Option RelayHistoryRecord :=
  p.relayHistory.find? (·.relayId == relayId)

/-- The call awaits its commit, or has not gone on after it. -/
def Call.committing (call : Call) : Bool :=
  match call.phase with
  | .committing _ _ _ => true
  | _ => false

/-- The commit of the call is done. -/
def Call.landed (call : Call) : Bool :=
  match call.phase with
  | .committing _ _ (some true) => true
  | _ => false

/-- What the process did with the records so far: the states that each went through, which of them
was the last that a write has made durable, and for each blocking task which state it writes. -/
structure Trail where
  passed : String → List RelayHistoryRecord := fun _ => []
  persisted : String → ℕ := fun _ => 0
  stamps : List ℕ := []

namespace Trail

/-- The records are as the process has them now. -/
def observe (t : Trail) (p : Process) : Trail :=
  { t with passed := fun relayId => t.passed relayId ++ (p.record relayId).toList }

/-- The state that a new task writes comes next. -/
def stamp (t : Trail) : BlockingTask → ℕ
  | .relay record => (t.passed record.relayId).length
  | .control _ _ _ => 0

/-- Task `k` has run. -/
def commit (t : Trail) (p : Process) (k : ℕ) (ok : Bool) : Trail :=
  { t with
    stamps := t.stamps.eraseIdx k
    persisted :=
      match p.blocking[k]?, t.stamps[k]?, ok with
      | some (.relay record), some n, true =>
        Function.update t.persisted record.relayId (max (t.persisted record.relayId) n)
      | _, _, _ => t.persisted }

/-- Call `i` goes on; if its batch was written, the records are durable as they are now. -/
def resume (t : Trail) (p : Process) (i : ℕ) : Trail :=
  { t with
    persisted :=
      if (p.calls.get i).any Call.landed then fun relayId => (t.passed relayId).length
      else t.persisted }

/-- The process changes a record, or spawns a task. -/
def move (t : Trail) (p p' : Process) : Trail :=
  { t.observe p' with stamps := t.stamps ++ (p'.blocking.drop p.blocking.length).map t.stamp }

def next (t : Trail) (s : Sys) (a : Action) (s' : Sys) : Trail :=
  match s.process, s'.process with
  | none, some p' => ({} : Trail).observe p'
  | some p, some p' =>
    match a with
    | .commit k ok => t.commit p k ok
    | .resume i => (t.resume p i).observe p'
    | _ => t.move p p'
  | _, none => {}

end Trail

/-- The machine with the trail of its process. -/
def trailed (env : Installation) (disk : Disk) : Machine (Sys × Trail) Action where
  start := ({ disk }, {})
  step s a := (s.1.step env a).map fun s' => (s', s.2.next s.1 a s')

/-- No clone is written after a later state of its record: neither a later clone nor a snapshot
batch. And no call whose batch is written is dropped, before or after that. -/
def inOrder (s : Sys × Trail) : Action → Bool
  | .commit k true =>
    match s.1.process with
    | none => true
    | some p =>
      match p.blocking[k]?, s.2.stamps[k]? with
      | some (.relay record), some n =>
        decide (s.2.persisted record.relayId ≤ n) &&
          p.calls.cells.all fun call => !call.any Call.landed
      | some (.control i _ _), _ => (p.calls.get i).isSome
      | _, _ => true
  | .cancel i => s.1.process.all fun p => !(p.calls.get i).any Call.landed
  | _ => true

/-- What an accepted directory says of a Relay is the same. -/
structure RelayHistoryRecord.Matches (record other : RelayHistoryRecord) : Prop where
  managementAddr : record.managementAddr = other.managementAddr
  managementSpkiSha256 : record.managementSpkiSha256 = other.managementSpkiSha256
  lastDirectoryGeneration : record.lastDirectoryGeneration = other.lastDirectoryGeneration
  currentMember : record.currentMember = other.currentMember

/-- The record on disk is that in memory, but for successes and failures, and these are those of a
state that the record went through at or after the last change that was persisted. -/
def Process.Durable (p : Process) (store : Store) (t : Trail) : Prop :=
  ∀ record ∈ p.relayHistory, ∃ stored, store.record record.relayId = some stored ∧
    stored.Matches record ∧
    ∃ past ∈ (t.passed record.relayId).drop (t.persisted record.relayId),
      stored.lastSuccessUnixSecs = past.lastSuccessUnixSecs ∧
      stored.lastFailureUnixSecs = past.lastFailureUnixSecs ∧
      stored.consecutiveFailures = past.consecutiveFailures

/-- No write is pending, and no call awaits one. -/
def Process.Quiet (p : Process) : Prop :=
  p.blocking = [] ∧ ∀ i call, p.calls.get i = some call → call.committing = false

section Stored
variable {store : Store} {record stored : RelayHistoryRecord} {relayId : String}
  {history : List RelayHistoryRecord}

theorem Store.unique_putHistory (h : store.Unique) : (store.putHistory record).Unique := by
  unfold Unique putHistory
  rw [List.map_cons, List.nodup_cons]
  constructor
  · intro hmem
    obtain ⟨row, hrow, hkey⟩ := List.mem_map.mp hmem
    have hne := (List.mem_filter.mp hrow).2
    simp [hkey] at hne
  · exact (List.filter_sublist.map Prod.fst).nodup h

theorem Store.record_putHistory :
    (store.putHistory record).record relayId =
      if relayId = record.relayId then some record else store.record relayId := by
  unfold Store.record putHistory
  by_cases hid : relayId = record.relayId
  · rw [if_pos hid, List.find?_cons_of_pos (by simp [hid])]
    rfl
  · have hfind : (store.relayHistory.filter (·.1 ≠ record.relayId)).find? (·.1 == relayId) =
        store.relayHistory.find? (·.1 == relayId) := by
      rw [List.find?_filter]
      congr 1
      funext row
      by_cases hrow : row.1 = relayId
      · simp [hrow, hid]
      · simp [hrow]
    rw [if_neg hid, List.find?_cons_of_neg (by simpa using Ne.symm hid), hfind]

theorem Store.unique_foldl (h : store.Unique) : (history.foldl putHistory store).Unique := by
  induction history generalizing store with
  | nil => exact h
  | cons record history ih => exact ih (unique_putHistory h)

/-- A batch puts every record that its history has once. -/
theorem Store.record_foldl_of_mem (hnodup : (history.map (·.relayId)).Nodup)
    (hmem : record ∈ history) :
    (history.foldl putHistory store).record record.relayId = some record := by
  induction history using List.reverseRecOn with
  | nil => cases hmem
  | append_singleton history last ih =>
    rw [List.foldl_append, List.foldl_cons, List.foldl_nil, record_putHistory]
    rw [List.map_append, List.nodup_append] at hnodup
    rcases List.mem_append.mp hmem with hmem | hmem
    · have hne : record.relayId ≠ last.relayId :=
        hnodup.2.2 _ (List.mem_map_of_mem hmem) _ (by simp)
      rw [if_neg hne]
      exact ih hnodup.1 hmem
    · rw [List.mem_singleton.mp hmem, if_pos rfl]

/-- The scan has the rows of the table. -/
theorem Store.perm_scanHistory : store.scanHistory.Perm store.relayHistory :=
  List.perm_insertionSort _ _

/-- What is loaded is what the disk has. -/
theorem record_of_mem_load (h : store.Unique) (hmem : record ∈ loadRelayHistory store) :
    store.record record.relayId = some record := by
  unfold loadRelayHistory at hmem
  have hrow := (List.mem_filter.mp hmem).1
  obtain ⟨⟨key, value⟩, hfound, rfl⟩ := List.mem_map.mp hrow
  obtain ⟨hscanned, hvalid⟩ := List.mem_filter.mp hfound
  have hfound := Store.perm_scanHistory.mem_iff.mp hscanned
  have hkey : key = value.relayId := by
    unfold validRelayHistoryRecord at hvalid
    simp only [Bool.and_eq_true, beq_iff_eq] at hvalid
    tauto
  have hfind : store.relayHistory.find? (·.1 == value.relayId) = some (key, value) :=
    (Keyed.find_iff h).mpr ⟨hfound, hkey⟩
  unfold Store.record
  rw [hfind]
  rfl

theorem nodup_loadRelayHistory (h : store.Unique) :
    ((loadRelayHistory store).map (·.relayId)).Nodup := by
  unfold loadRelayHistory
  have hscan : (store.scanHistory.map Prod.fst).Nodup :=
    (Store.perm_scanHistory.map Prod.fst).nodup_iff.mpr h
  have hkeys : ((store.scanHistory.filter fun row => validRelayHistoryRecord row.1 row.2).map
      Prod.fst).Nodup := (List.filter_sublist.map _).nodup hscan
  have hsame : ((store.scanHistory.filter fun row => validRelayHistoryRecord row.1 row.2).map
      (·.2)).map (·.relayId) = (store.scanHistory.filter fun row =>
        validRelayHistoryRecord row.1 row.2).map Prod.fst := by
    rw [List.map_map]
    apply List.map_congr_left
    intro row hrow
    have hvalid := (List.mem_filter.mp hrow).2
    unfold validRelayHistoryRecord at hvalid
    simp only [Bool.and_eq_true, beq_iff_eq] at hvalid
    exact hvalid.1.1.1.1.1.1.2.symm
  rw [← hsame] at hkeys
  exact (List.filter_sublist.map _).nodup hkeys

end Stored

theorem RelayHistoryRecord.Matches.refl (record : RelayHistoryRecord) : record.Matches record :=
  ⟨rfl, rfl, rfl, rfl⟩

theorem RelayHistoryRecord.Matches.trans {a b c : RelayHistoryRecord} (h : a.Matches b)
    (h' : b.Matches c) : a.Matches c :=
  ⟨h.1.trans h'.1, h.2.trans h'.2, h.3.trans h'.3, h.4.trans h'.4⟩

theorem Call.committing_of_landed {call : Call} (h : call.landed = true) :
    call.committing = true := by
  unfold landed at h
  unfold committing
  split at h
  · next heq => simp only [heq]
  · cases h

section Proposed
variable {snapshot : VerifiedControlSnapshot} {now : ℕ} {history : List RelayHistoryRecord}

/-- A record that changes keeps its id. -/
theorem ids_modify {f : RelayHistoryRecord → RelayHistoryRecord} {i : ℕ}
    (hf : ∀ record, (f record).relayId = record.relayId) :
    (history.modify i f).map (·.relayId) = history.map (·.relayId) := by
  apply List.ext_getElem?
  intro n
  rw [List.getElem?_map, List.getElem?_modify, List.getElem?_map]
  cases history[n]? with
  | none => rfl
  | some record => by_cases hn : i = n <;> simp [hn, hf]

/-- An endpoint brings a record up to date, or adds one. -/
theorem ids_recordEndpoint (endpoint : RelayEndpoint) :
    (recordEndpoint snapshot now history endpoint).map (·.relayId) =
      if endpoint.id ∈ history.map (·.relayId) then history.map (·.relayId)
      else history.map (·.relayId) ++ [endpoint.id] := by
  unfold recordEndpoint
  split
  · next i hi =>
    have hfound := List.findIdx?_eq_some_iff_getElem.mp hi
    obtain ⟨hlt, hid, -⟩ := hfound
    have hmem : endpoint.id ∈ history.map (·.relayId) :=
      List.mem_map.mpr ⟨history[i], List.getElem_mem hlt, by simpa using hid⟩
    rw [if_pos hmem]
    exact ids_modify fun record => rfl
  · next hnone =>
    have hmem : endpoint.id ∉ history.map (·.relayId) := by
      intro hmem
      obtain ⟨record, hrecord, hid⟩ := List.mem_map.mp hmem
      have hne := List.findIdx?_eq_none_iff.mp hnone record hrecord
      simp [hid] at hne
    rw [if_neg hmem, List.map_append]
    rfl

/-- What holds of the ids on record, and still does when a new one is added, holds of the ids that
are proposed. -/
theorem ids_proposedHistory {p : List String → Prop} (hstart : p (history.map (·.relayId)))
    (hadd : ∀ ids id, p ids → id ∉ ids → p (ids ++ [id])) :
    p ((proposedHistory snapshot now history).map (·.relayId)) := by
  have hclosed : p ((history.map fun record => { record with currentMember := false }).map
      (·.relayId)) := by
    rw [List.map_map]
    exact hstart
  unfold proposedHistory
  generalize (history.map fun record => { record with currentMember := false }) = l at hclosed
  induction snapshot.payload.relayDirectory.relays generalizing l with
  | nil => exact hclosed
  | cons endpoint relays ih =>
    apply ih
    rw [ids_recordEndpoint]
    split_ifs with hmem
    · exact hclosed
    · exact hadd _ _ hclosed hmem

theorem nodup_proposedHistory (h : (history.map (·.relayId)).Nodup) :
    ((proposedHistory snapshot now history).map (·.relayId)).Nodup := by
  apply ids_proposedHistory h
  intro ids id hids hmem
  rw [List.nodup_append]
  refine ⟨hids, List.nodup_singleton id, ?_⟩
  intro known hknown other hother heq
  rw [List.mem_singleton] at hother
  rw [← hother, ← heq] at hmem
  exact hmem hknown

/-- No record is given up. -/
theorem exists_proposedHistory {record : RelayHistoryRecord} (h : record ∈ history) :
    ∃ record' ∈ proposedHistory snapshot now history, record'.relayId = record.relayId := by
  have hstart : record.relayId ∈ history.map (·.relayId) := List.mem_map_of_mem h
  have hend : record.relayId ∈ (proposedHistory snapshot now history).map (·.relayId) := by
    apply ids_proposedHistory (p := fun ids => record.relayId ∈ ids) hstart
    intro ids id hids _
    exact List.mem_append_left [id] hids
  exact List.mem_map.mp hend

end Proposed

/-- What holds of the records, the clones that are to be written and the table on disk. -/
structure Recorded (p : Process) (t : Trail) (store : Store) : Prop where
  nodup : (p.relayHistory.map (·.relayId)).Nodup
  unique : store.Unique
  now : ∀ record ∈ p.relayHistory, ∃ before, t.passed record.relayId = before ++ [record]
  persisted_lt : ∀ record ∈ p.relayHistory,
    t.persisted record.relayId < (t.passed record.relayId).length
  same : ∀ record ∈ p.relayHistory, ∀ n past, t.persisted record.relayId ≤ n →
    (t.passed record.relayId)[n]? = some past → past.Matches record
  stamps_length : t.stamps.length = p.blocking.length
  stamped : ∀ (k : ℕ) (clone : RelayHistoryRecord) (n : ℕ),
    p.blocking[k]? = some (.relay clone) → t.stamps[k]? = some n →
    (∃ record ∈ p.relayHistory, record.relayId = clone.relayId) ∧
      (t.passed clone.relayId)[n]? = some clone
  durable : (∀ i call, p.calls.get i = some call → call.landed = false) →
    ∀ record ∈ p.relayHistory, ∃ n past, store.record record.relayId = some past ∧
      t.persisted record.relayId ≤ n ∧ (t.passed record.relayId)[n]? = some past

/-- What holds of the calls and their batches. -/
structure Called (p : Process) (store : Store) : Prop where
  locked : ∀ i call, p.calls.get i = some call → call.committing = true → p.historyLock = some i
  proposes : ∀ i snapshot verified proposed history outcome,
    p.calls.get i = some ⟨snapshot, verified, .committing proposed history outcome⟩ →
      ∃ now, history = proposedHistory verified now p.relayHistory
  written : ∀ i snapshot verified proposed history,
    p.calls.get i = some ⟨snapshot, verified, .committing proposed history (some true)⟩ →
      ∀ record ∈ history, store.record record.relayId = some record
  task : ∀ i proposed history, .control i proposed history ∈ p.blocking →
    i < p.calls.next ∧ ∀ call, p.calls.get i = some call →
      ∃ snapshot verified, call = ⟨snapshot, verified, .committing proposed history none⟩
  single : ∀ (k k' i : ℕ) (proposed proposed' : ControlTrustState)
    (history history' : List RelayHistoryRecord),
    p.blocking[k]? = some (.control i proposed history) →
    p.blocking[k']? = some (.control i proposed' history') → k = k'

section Records
variable {p p' : Process} {t : Trail} {store : Store} {i : ℕ}

theorem record_eq {history : List RelayHistoryRecord} (h : (history.map (·.relayId)).Nodup)
    {record : RelayHistoryRecord} (hmem : record ∈ history) :
    history.find? (·.relayId == record.relayId) = some record :=
  (Keyed.find_iff h).mpr ⟨hmem, rfl⟩

namespace Trail

theorem passed_observe (h : (p'.relayHistory.map (·.relayId)).Nodup) {record : RelayHistoryRecord}
    (hmem : record ∈ p'.relayHistory) :
    (t.observe p').passed record.relayId = t.passed record.relayId ++ [record] := by
  show t.passed record.relayId ++ (p'.record record.relayId).toList = _
  unfold Process.record
  rw [record_eq h hmem]
  rfl

theorem getElem?_observe {relayId : String} {n : ℕ} {past : RelayHistoryRecord}
    (h : (t.passed relayId)[n]? = some past) :
    ((t.observe p').passed relayId)[n]? = some past := by
  have hlt : n < (t.passed relayId).length := (List.getElem?_eq_some_iff.mp h).1
  show (t.passed relayId ++ (p'.record relayId).toList)[n]? = some past
  rw [List.getElem?_append_left hlt]
  exact h

theorem persisted_commit_failed (k : ℕ) : (t.commit p k false).persisted = t.persisted := by
  unfold commit
  dsimp only
  split
  · contradiction
  · rfl

theorem persisted_commit_control {k : ℕ} {ok : Bool} {proposed : ControlTrustState}
    {history : List RelayHistoryRecord} (hk : p.blocking[k]? = some (.control i proposed history)) :
    (t.commit p k ok).persisted = t.persisted := by
  unfold commit
  rw [hk]

theorem persisted_commit_relay {k n : ℕ} {clone : RelayHistoryRecord}
    (hk : p.blocking[k]? = some (.relay clone)) (hn : t.stamps[k]? = some n)
    (hle : t.persisted clone.relayId ≤ n) :
    (t.commit p k true).persisted = Function.update t.persisted clone.relayId n := by
  unfold commit
  rw [hk, hn]
  dsimp only
  rw [max_eq_right hle]

end Trail

/-- A step that leaves what the directory says of each Relay. What it spawns to write is the record
as it is then. -/
theorem Recorded.move {added : List BlockingTask} (h : Recorded p t store)
    (hnodup : (p'.relayHistory.map (·.relayId)).Nodup)
    (hfrom : ∀ record' ∈ p'.relayHistory, ∃ record ∈ p.relayHistory,
      record.relayId = record'.relayId ∧ record.Matches record')
    (hto : ∀ record ∈ p.relayHistory, ∃ record' ∈ p'.relayHistory,
      record'.relayId = record.relayId)
    (hblocking : p'.blocking = p.blocking ++ added)
    (hclones : ∀ clone, .relay clone ∈ added → clone ∈ p'.relayHistory)
    (hkeep : ∀ i call, call.landed = true → p.calls.get i = some call →
      p'.calls.get i = some call) : Recorded p' (t.move p p') store := by
  have hstamps : (t.move p p').stamps = t.stamps ++ added.map t.stamp := by
    show t.stamps ++ (p'.blocking.drop p.blocking.length).map t.stamp = _
    rw [hblocking, List.drop_left]
  have hpassed : (t.move p p').passed = (t.observe p').passed := rfl
  refine ⟨hnodup, h.unique, ?_, ?_, ?_, ?_, ?_, ?_⟩
  · intro record' hmem
    rw [hpassed]
    exact ⟨_, Trail.passed_observe hnodup hmem⟩
  · intro record' hmem
    obtain ⟨record, hrecord, hid, -⟩ := hfrom record' hmem
    have hlt := h.persisted_lt record hrecord
    rw [hid] at hlt
    rw [hpassed, Trail.passed_observe hnodup hmem, List.length_append]
    show t.persisted record'.relayId < _
    omega
  · intro record' hmem n past hn hpast
    obtain ⟨record, hrecord, hid, hmatch⟩ := hfrom record' hmem
    rw [hpassed, Trail.passed_observe hnodup hmem] at hpast
    by_cases hlt : n < (t.passed record'.relayId).length
    · rw [List.getElem?_append_left hlt, ← hid] at hpast
      have hn' : t.persisted record.relayId ≤ n := by
        rw [hid]
        exact hn
      exact (h.same record hrecord n past hn' hpast).trans hmatch
    · have hpast' : past ∈ [record'] := by
        rw [List.getElem?_append_right (by omega)] at hpast
        exact List.mem_of_getElem? hpast
      rw [List.mem_singleton.mp hpast']
      exact .refl record'
  · rw [hstamps, hblocking, List.length_append, List.length_append, List.length_map,
      h.stamps_length]
  · intro k clone n hk hn
    rw [hstamps] at hn
    rw [hblocking] at hk
    by_cases hlt : k < p.blocking.length
    · rw [List.getElem?_append_left hlt] at hk
      rw [List.getElem?_append_left (by rw [h.stamps_length]; exact hlt)] at hn
      obtain ⟨⟨record, hrecord, hid⟩, hpast⟩ := h.stamped k clone n hk hn
      obtain ⟨record', hrecord', hid'⟩ := hto record hrecord
      exact ⟨⟨record', hrecord', hid'.trans hid⟩, Trail.getElem?_observe hpast⟩
    · rw [List.getElem?_append_right (by omega)] at hk
      rw [List.getElem?_append_right (by rw [h.stamps_length]; omega), List.getElem?_map,
        h.stamps_length, hk] at hn
      have hn : (t.passed clone.relayId).length = n := Option.some.inj hn
      have hmem := hclones clone (List.mem_of_getElem? hk)
      refine ⟨⟨clone, hmem, rfl⟩, ?_⟩
      rw [hpassed, Trail.passed_observe hnodup hmem, ← hn]
      exact List.getElem?_concat_length
  · intro hnone record' hmem
    obtain ⟨record, hrecord, hid, -⟩ := hfrom record' hmem
    have hnone' : ∀ i call, p.calls.get i = some call → call.landed = false := by
      intro i call hcall
      by_contra hlanded
      have hlanded : call.landed = true := by simpa using hlanded
      have hfalse := hnone i call (hkeep i call hlanded hcall)
      rw [hfalse] at hlanded
      cases hlanded
    obtain ⟨n, past, hstored, hn, hpast⟩ := h.durable hnone' record hrecord
    rw [hid] at hstored hn hpast
    exact ⟨n, past, hstored, hn, Trail.getElem?_observe hpast⟩

/-- A step that leaves the records. -/
theorem Recorded.frame {added : List BlockingTask} (h : Recorded p t store)
    (hhistory : p'.relayHistory = p.relayHistory) (hblocking : p'.blocking = p.blocking ++ added)
    (hclones : ∀ clone, .relay clone ∉ added)
    (hkeep : ∀ i call, call.landed = true → p.calls.get i = some call →
      p'.calls.get i = some call) : Recorded p' (t.move p p') store := by
  apply h.move ?_ ?_ ?_ hblocking ?_ hkeep
  · rw [hhistory]
    exact h.nodup
  · rw [hhistory]
    exact fun record hmem => ⟨record, hmem, rfl, .refl record⟩
  · rw [hhistory]
    exact fun record hmem => ⟨record, hmem, rfl⟩
  · exact fun clone hmem => absurd hmem (hclones clone)

/-- A task that writes no record has run, or one that failed. -/
theorem Recorded.erase {t' : Trail} {store' : Store} {k : ℕ} (h : Recorded p t store)
    (hhistory : p'.relayHistory = p.relayHistory) (hblocking : p'.blocking = p.blocking.eraseIdx k)
    (hk : k < p.blocking.length) (hstamps : t'.stamps = t.stamps.eraseIdx k)
    (hpassed : t'.passed = t.passed) (hpersisted : t'.persisted = t.persisted)
    (hunique : store'.Unique)
    (hdurable : (∀ i call, p'.calls.get i = some call → call.landed = false) →
      store' = store ∧ ∀ i call, p.calls.get i = some call → call.landed = false) :
    Recorded p' t' store' := by
  refine ⟨?_, hunique, ?_, ?_, ?_, ?_, ?_, ?_⟩
  · rw [hhistory]
    exact h.nodup
  · rw [hhistory, hpassed]
    exact h.now
  · rw [hhistory, hpassed, hpersisted]
    exact h.persisted_lt
  · rw [hhistory, hpassed, hpersisted]
    exact h.same
  · rw [hstamps, hblocking, List.length_eraseIdx_of_lt hk,
      List.length_eraseIdx_of_lt (by rw [h.stamps_length]; exact hk), h.stamps_length]
  · intro k' clone n hk' hn
    rw [hhistory, hpassed]
    rw [hblocking, List.getElem?_eraseIdx] at hk'
    rw [hstamps, List.getElem?_eraseIdx] at hn
    split_ifs at hk' hn
    · exact h.stamped k' clone n hk' hn
    · exact h.stamped (k' + 1) clone n hk' hn
  · intro hnone
    obtain ⟨rfl, hnone'⟩ := hdurable hnone
    rw [hhistory, hpassed, hpersisted]
    exact h.durable hnone'

/-- A clone is written that is not older than what is on disk. -/
theorem Recorded.wrote {t' : Trail} {clone : RelayHistoryRecord} {k n : ℕ} (h : Recorded p t store)
    (hhistory : p'.relayHistory = p.relayHistory) (hblocking : p'.blocking = p.blocking.eraseIdx k)
    (hk : p.blocking[k]? = some (.relay clone)) (hn : t.stamps[k]? = some n)
    (hstamps : t'.stamps = t.stamps.eraseIdx k) (hpassed : t'.passed = t.passed)
    (hpersisted : t'.persisted = Function.update t.persisted clone.relayId n)
    (hle : t.persisted clone.relayId ≤ n)
    (hnone : ∀ i call, p.calls.get i = some call → call.landed = false) :
    Recorded p' t' (store.putHistory clone) := by
  have hlt : k < p.blocking.length := (List.getElem?_eq_some_iff.mp hk).1
  have hpast := (h.stamped k clone n hk hn).2
  have hnlt : n < (t.passed clone.relayId).length := (List.getElem?_eq_some_iff.mp hpast).1
  have hge : ∀ relayId, t.persisted relayId ≤ t'.persisted relayId := by
    intro relayId
    rw [hpersisted]
    by_cases hid : relayId = clone.relayId
    · subst hid
      rw [Function.update_self]
      exact hle
    · rw [Function.update_of_ne hid]
  refine ⟨?_, Store.unique_putHistory h.unique, ?_, ?_, ?_, ?_, ?_, ?_⟩
  · rw [hhistory]
    exact h.nodup
  · rw [hhistory, hpassed]
    exact h.now
  · intro record hmem
    rw [hhistory] at hmem
    rw [hpassed, hpersisted]
    by_cases hid : record.relayId = clone.relayId
    · rw [hid, Function.update_self]
      exact hnlt
    · rw [Function.update_of_ne hid]
      exact h.persisted_lt record hmem
  · intro record hmem n' past hn' hpast'
    rw [hhistory] at hmem
    rw [hpassed] at hpast'
    exact h.same record hmem n' past ((hge record.relayId).trans hn') hpast'
  · rw [hstamps, hblocking, List.length_eraseIdx_of_lt hlt,
      List.length_eraseIdx_of_lt (by rw [h.stamps_length]; exact hlt), h.stamps_length]
  · intro k' clone' n' hk' hn'
    rw [hhistory, hpassed]
    rw [hblocking, List.getElem?_eraseIdx] at hk'
    rw [hstamps, List.getElem?_eraseIdx] at hn'
    split_ifs at hk' hn'
    · exact h.stamped k' clone' n' hk' hn'
    · exact h.stamped (k' + 1) clone' n' hk' hn'
  · intro _ record hmem
    rw [hhistory] at hmem
    rw [Store.record_putHistory, hpassed, hpersisted]
    by_cases hid : record.relayId = clone.relayId
    · rw [if_pos hid, hid, Function.update_self]
      exact ⟨n, clone, rfl, le_rfl, hpast⟩
    · rw [if_neg hid, Function.update_of_ne hid]
      exact h.durable hnone record hmem

/-- The records of a batch that was written are taken over. -/
theorem Recorded.taken {t' : Trail} (h : Recorded p t store)
    (hnodup : (p'.relayHistory.map (·.relayId)).Nodup)
    (hto : ∀ record ∈ p.relayHistory, ∃ record' ∈ p'.relayHistory,
      record'.relayId = record.relayId)
    (hblocking : p'.blocking = p.blocking) (hstamps : t'.stamps = t.stamps)
    (hpassed : t'.passed = (t.observe p').passed)
    (hpersisted : t'.persisted = fun relayId => (t.passed relayId).length)
    (hwritten : ∀ record ∈ p'.relayHistory, store.record record.relayId = some record) :
    Recorded p' t' store := by
  have hpassed : ∀ record ∈ p'.relayHistory,
      t'.passed record.relayId = t.passed record.relayId ++ [record] := by
    intro record hmem
    rw [hpassed]
    exact Trail.passed_observe hnodup hmem
  refine ⟨hnodup, h.unique, ?_, ?_, ?_, ?_, ?_, ?_⟩
  · exact fun record hmem => ⟨_, hpassed record hmem⟩
  · intro record hmem
    rw [hpassed record hmem, hpersisted, List.length_append, List.length_singleton]
    exact Nat.lt_succ_self _
  · intro record hmem n past hn hpast
    rw [hpersisted] at hn
    rw [hpassed record hmem, List.getElem?_append_right hn] at hpast
    rw [List.mem_singleton.mp (List.mem_of_getElem? hpast)]
    exact .refl record
  · rw [hstamps, hblocking, h.stamps_length]
  · intro k clone n hk hn
    rw [hblocking] at hk
    rw [hstamps] at hn
    obtain ⟨⟨record, hrecord, hid⟩, hpast⟩ := h.stamped k clone n hk hn
    obtain ⟨record', hrecord', hid'⟩ := hto record hrecord
    have hid' : record'.relayId = clone.relayId := hid'.trans hid
    refine ⟨⟨record', hrecord', hid'⟩, ?_⟩
    have hlt : n < (t.passed clone.relayId).length := (List.getElem?_eq_some_iff.mp hpast).1
    rw [← hid', hpassed record' hrecord', hid', List.getElem?_append_left hlt]
    exact hpast
  · intro _ record hmem
    refine ⟨_, record, hwritten record hmem, le_rfl, ?_⟩
    rw [hpassed record hmem, hpersisted]
    exact List.getElem?_concat_length

/-- What a process has that was just loaded. -/
theorem Recorded.loaded (hunique : store.Unique) (hhistory : p.relayHistory = loadRelayHistory store)
    (hblocking : p.blocking = []) : Recorded p (({} : Trail).observe p) store := by
  have hnodup : (p.relayHistory.map (·.relayId)).Nodup := by
    rw [hhistory]
    exact nodup_loadRelayHistory hunique
  have hpassed : ∀ record ∈ p.relayHistory,
      (({} : Trail).observe p).passed record.relayId = [record] := by
    intro record hmem
    exact Trail.passed_observe hnodup hmem
  refine ⟨hnodup, hunique, ?_, ?_, ?_, ?_, ?_, ?_⟩
  · exact fun record hmem => ⟨[], hpassed record hmem⟩
  · intro record hmem
    rw [hpassed record hmem]
    exact Nat.zero_lt_one
  · intro record hmem n past _ hpast
    rw [hpassed record hmem] at hpast
    rw [List.mem_singleton.mp (List.mem_of_getElem? hpast)]
    exact .refl record
  · rw [hblocking]
    rfl
  · intro k clone n hk
    rw [hblocking] at hk
    cases hk
  · intro _ record hmem
    refine ⟨0, record, ?_, le_rfl, ?_⟩
    · rw [hhistory] at hmem
      exact record_of_mem_load hunique hmem
    · rw [hpassed record hmem]
      rfl

end Records

section Calls
variable {p p' : Process} {store : Store} {i : ℕ}

/-- A call goes on, or ends, and does not start its batch. -/
theorem Called.set {call : Call} {c : Option Call} (h : Called p store)
    (hhistory : p'.relayHistory = p.relayHistory) (hblocking : p'.blocking = p.blocking)
    (hset : p'.calls = p.calls.set i c) (hcall : p.calls.get i = some call)
    (hc : ∀ after, c = some after → after.committing = false ∧ call.committing = false)
    (hlock : ∀ j, j ≠ i → p.historyLock = some j → p'.historyLock = some j) : Called p' store := by
  have hback : ∀ j after, after.committing = true → p'.calls.get j = some after →
      j ≠ i ∧ p.calls.get j = some after := by
    intro j after hcommitting hafter
    rw [hset] at hafter
    rcases Slots.get_set_cases hafter with ⟨-, hnew, -⟩ | hold
    · rw [(hc after hnew).1] at hcommitting
      cases hcommitting
    · exact hold
  refine ⟨?_, ?_, ?_, ?_, ?_⟩
  · intro j after hafter hcommitting
    obtain ⟨hne, hold⟩ := hback j after hcommitting hafter
    exact hlock j hne (h.locked j after hold hcommitting)
  · intro j snapshot verified proposed history outcome hafter
    rw [hhistory]
    exact h.proposes j snapshot verified proposed history outcome (hback j _ rfl hafter).2
  · intro j snapshot verified proposed history hafter
    exact h.written j snapshot verified proposed history (hback j _ rfl hafter).2
  · intro j proposed history hmem
    rw [hblocking] at hmem
    obtain ⟨hlt, htask⟩ := h.task j proposed history hmem
    rw [hset, Slots.next_set]
    refine ⟨hlt, fun after hafter => ?_⟩
    rcases Slots.get_set_cases hafter with ⟨rfl, hnew, -⟩ | ⟨-, hold⟩
    · obtain ⟨snapshot, verified, rfl⟩ := htask call hcall
      cases (hc after hnew).2
    · exact htask after hold
  · rw [hblocking]
    exact h.single

/-- A call comes in. -/
theorem Called.push {call : Call} (h : Called p store) (hfalse : call.committing = false)
    (hhistory : p'.relayHistory = p.relayHistory) (hblocking : p'.blocking = p.blocking)
    (hpush : p'.calls = p.calls.push call) (hlock : p'.historyLock = p.historyLock) :
    Called p' store := by
  have hback : ∀ j after, after.committing = true → p'.calls.get j = some after →
      p.calls.get j = some after := by
    intro j after hcommitting hafter
    rw [hpush] at hafter
    rcases Slots.get_push_cases hafter with ⟨-, rfl⟩ | ⟨-, hold⟩
    · rw [hfalse] at hcommitting
      cases hcommitting
    · exact hold
  refine ⟨?_, ?_, ?_, ?_, ?_⟩
  · intro j after hafter hcommitting
    rw [hlock]
    exact h.locked j after (hback j after hcommitting hafter) hcommitting
  · intro j snapshot verified proposed history outcome hafter
    rw [hhistory]
    exact h.proposes j snapshot verified proposed history outcome (hback j _ rfl hafter)
  · intro j snapshot verified proposed history hafter
    exact h.written j snapshot verified proposed history (hback j _ rfl hafter)
  · intro j proposed history hmem
    rw [hblocking] at hmem
    obtain ⟨hlt, htask⟩ := h.task j proposed history hmem
    rw [hpush, Slots.next_push]
    refine ⟨by omega, fun after hafter => ?_⟩
    rcases Slots.get_push_cases hafter with ⟨heq, -⟩ | ⟨-, hold⟩
    · omega
    · exact htask after hold
  · rw [hblocking]
    exact h.single

theorem Called.no_committing (h : Called p store) (hlock : p.historyLock = none) {j : ℕ}
    {call : Call} (hget : p.calls.get j = some call) : call.committing = false := by
  by_contra hne
  have hheld := h.locked j call hget (by simpa using hne)
  rw [hlock] at hheld
  cases hheld

/-- Only the records change, which no call has locked, and clones of them are to be written. -/
theorem Called.record {added : List BlockingTask} (h : Called p store)
    (hfree : p.historyLock = none) (hcalls : p'.calls = p.calls)
    (hblocking : p'.blocking = p.blocking ++ added)
    (hadded : ∀ i proposed history, .control i proposed history ∉ added) : Called p' store := by
  have hidle : ∀ j after, p'.calls.get j = some after → after.committing = false := by
    intro j after hafter
    rw [hcalls] at hafter
    exact h.no_committing hfree hafter
  have hold : ∀ (k i : ℕ) (proposed : ControlTrustState) (history : List RelayHistoryRecord),
      p'.blocking[k]? = some (.control i proposed history) →
        p.blocking[k]? = some (.control i proposed history) := by
    intro k i proposed history hk
    rw [hblocking] at hk
    by_cases hlt : k < p.blocking.length
    · rw [List.getElem?_append_left hlt] at hk
      exact hk
    · rw [List.getElem?_append_right (by omega)] at hk
      exact absurd (List.mem_of_getElem? hk) (hadded i proposed history)
  refine ⟨?_, ?_, ?_, ?_, ?_⟩
  · intro j after hafter hcommitting
    rw [hidle j after hafter] at hcommitting
    cases hcommitting
  · intro j snapshot verified proposed history outcome hafter
    cases hidle j _ hafter
  · intro j snapshot verified proposed history hafter
    cases hidle j _ hafter
  · intro j proposed history hmem
    obtain ⟨k, hk⟩ := List.getElem?_of_mem hmem
    rw [hcalls]
    exact h.task j proposed history (List.mem_of_getElem? (hold k j proposed history hk))
  · intro k k' j proposed proposed' history history' hk hk'
    exact h.single k k' j proposed proposed' history history' (hold k j proposed history hk)
      (hold k' j proposed' history' hk')

/-- The call that takes the lock of the records proposes its batch. -/
theorem Called.opened {snapshot : SignedControlSnapshot} {verified : VerifiedControlSnapshot}
    {proposed : ControlTrustState} {now : ℕ} (h : Called p store)
    (hcall : p.calls.get i = some ⟨snapshot, verified, .accepted proposed⟩)
    (hfree : p.historyLock = none) (hhistory : p'.relayHistory = p.relayHistory)
    (hblocking : p'.blocking = p.blocking ++
      [BlockingTask.control i proposed (proposedHistory verified now p.relayHistory)])
    (hset : p'.calls = p.calls.set i (some ⟨snapshot, verified,
      .committing proposed (proposedHistory verified now p.relayHistory) none⟩))
    (hheld : p'.historyLock = some i) : Called p' store := by
  have hself : ∀ j after, p'.calls.get j = some after → after.committing = true → j = i ∧
      after = ⟨snapshot, verified,
        .committing proposed (proposedHistory verified now p.relayHistory) none⟩ := by
    intro j after hafter hcommitting
    rw [hset] at hafter
    rcases Slots.get_set_cases hafter with ⟨heq, hnew, -⟩ | ⟨-, hold⟩
    · exact ⟨heq, (Option.some.inj hnew).symm⟩
    · rw [h.no_committing hfree hold] at hcommitting
      cases hcommitting
  have hnew : ∀ proposed' history', .control i proposed' history' ∉ p.blocking := by
    intro proposed' history' hmem
    obtain ⟨snapshot', verified', heq⟩ := (h.task i proposed' history' hmem).2 _ hcall
    cases heq
  have hold : ∀ (k j : ℕ) (proposed' : ControlTrustState) (history' : List RelayHistoryRecord),
      p'.blocking[k]? = some (.control j proposed' history') →
        p.blocking[k]? = some (.control j proposed' history') ∨ k = p.blocking.length ∧ j = i := by
    intro k j proposed' history' hk
    rw [hblocking] at hk
    by_cases hlt : k < p.blocking.length
    · rw [List.getElem?_append_left hlt] at hk
      exact .inl hk
    · have hlen := (List.getElem?_eq_some_iff.mp hk).1
      rw [List.length_append, List.length_singleton] at hlen
      rw [List.getElem?_append_right (by omega)] at hk
      have heq := List.mem_singleton.mp (List.mem_of_getElem? hk)
      exact .inr ⟨by omega, (BlockingTask.control.inj heq).1⟩
  refine ⟨?_, ?_, ?_, ?_, ?_⟩
  · intro j after hafter hcommitting
    rw [(hself j after hafter hcommitting).1]
    exact hheld
  · intro j snapshot' verified' proposed' history' outcome hafter
    cases (hself j _ hafter rfl).2
    rw [hhistory]
    exact ⟨now, rfl⟩
  · intro j snapshot' verified' proposed' history' hafter
    cases (hself j _ hafter rfl).2
  · intro j proposed' history' hmem
    rw [hset, Slots.next_set]
    rw [hblocking] at hmem
    rcases List.mem_append.mp hmem with hmem | hmem
    · obtain ⟨hlt, htask⟩ := h.task j proposed' history' hmem
      have hne : j ≠ i := by
        intro heq
        subst heq
        exact hnew proposed' history' (by assumption)
      rw [Slots.get_set_ne hne]
      exact ⟨hlt, htask⟩
    · cases List.mem_singleton.mp hmem
      rw [Slots.get_set_self hcall]
      exact ⟨Slots.lt_next_of_get hcall,
        fun after hafter => ⟨snapshot, verified, (Option.some.inj hafter).symm⟩⟩
  · intro k k' j proposed₁ proposed₂ history₁ history₂ hk hk'
    rcases hold k j proposed₁ history₁ hk with hk | ⟨heq, rfl⟩ <;>
      rcases hold k' j proposed₂ history₂ hk' with hk' | ⟨heq', hj⟩
    · exact h.single k k' j proposed₁ proposed₂ history₁ history₂ hk hk'
    · subst hj
      exact absurd (List.mem_of_getElem? hk) (hnew proposed₁ history₁)
    · exact absurd (List.mem_of_getElem? hk') (hnew proposed₂ history₂)
    · omega

/-- Tasks that are left keep their numbers' order. -/
theorem Called.single_eraseIdx (h : Called p store) (k : ℕ) :
    ∀ (m m' i : ℕ) (proposed proposed' : ControlTrustState)
      (history history' : List RelayHistoryRecord),
      (p.blocking.eraseIdx k)[m]? = some (.control i proposed history) →
      (p.blocking.eraseIdx k)[m']? = some (.control i proposed' history') → m = m' := by
  intro m m' i proposed proposed' history history' hm hm'
  rw [List.getElem?_eraseIdx] at hm hm'
  split_ifs at hm hm'
  · exact h.single _ _ i proposed proposed' history history' hm hm'
  · have heq := h.single _ _ i proposed proposed' history history' hm hm'
    omega
  · have heq := h.single _ _ i proposed proposed' history history' hm hm'
    omega
  · have heq := h.single _ _ i proposed proposed' history history' hm hm'
    omega

/-- A task has run that no call awaits. -/
theorem Called.erase {store' : Store} {k : ℕ} (h : Called p store)
    (hhistory : p'.relayHistory = p.relayHistory) (hblocking : p'.blocking = p.blocking.eraseIdx k)
    (hcalls : p'.calls = p.calls) (hlock : p'.historyLock = p.historyLock)
    (hstore : store' = store ∨ ∀ i call, p.calls.get i = some call → call.landed = false) :
    Called p' store' := by
  refine ⟨?_, ?_, ?_, ?_, ?_⟩
  · rw [hcalls, hlock]
    exact h.locked
  · rw [hcalls, hhistory]
    exact h.proposes
  · intro i snapshot verified proposed history hget
    rw [hcalls] at hget
    rcases hstore with rfl | hnone
    · exact h.written i snapshot verified proposed history hget
    · cases hnone i _ hget
  · intro i proposed history hmem
    rw [hblocking] at hmem
    rw [hcalls]
    exact h.task i proposed history (List.mem_of_mem_eraseIdx hmem)
  · rw [hblocking]
    exact h.single_eraseIdx k

/-- A batch was written, or it failed, and its call is told. -/
theorem Called.told {store' : Store} {k : ℕ} {ok : Bool} {snapshot : SignedControlSnapshot}
    {verified : VerifiedControlSnapshot} {proposed : ControlTrustState}
    {history : List RelayHistoryRecord} (h : Called p store)
    (hhistory : p'.relayHistory = p.relayHistory) (hblocking : p'.blocking = p.blocking.eraseIdx k)
    (hk : p.blocking[k]? = some (.control i proposed history))
    (hcall : p.calls.get i = some ⟨snapshot, verified, .committing proposed history none⟩)
    (hset : p'.calls = p.calls.set i
      (some ⟨snapshot, verified, .committing proposed history (some ok)⟩))
    (hlock : p'.historyLock = p.historyLock)
    (hwritten : ok = true → ∀ record ∈ history, store'.record record.relayId = some record) :
    Called p' store' := by
  have hheld : p.historyLock = some i := h.locked i _ hcall rfl
  have hself : ∀ j after, p'.calls.get j = some after → after.committing = true →
      j = i ∧ after = ⟨snapshot, verified, .committing proposed history (some ok)⟩ := by
    intro j after hafter hcommitting
    rw [hset] at hafter
    rcases Slots.get_set_cases hafter with ⟨heq, hnew, -⟩ | ⟨hne, hold⟩
    · exact ⟨heq, (Option.some.inj hnew).symm⟩
    · have hheld' := h.locked j after hold hcommitting
      rw [hheld] at hheld'
      exact absurd (Option.some.inj hheld').symm hne
  refine ⟨?_, ?_, ?_, ?_, ?_⟩
  · intro j after hafter hcommitting
    rw [hlock, (hself j after hafter hcommitting).1]
    exact hheld
  · intro j snapshot' verified' proposed' history' outcome hafter
    cases (hself j _ hafter rfl).2
    rw [hhistory]
    exact h.proposes i snapshot verified proposed history none hcall
  · intro j snapshot' verified' proposed' history' hafter
    have heq := (hself j _ hafter rfl).2
    simp only [Call.mk.injEq, Phase.committing.injEq, Option.some.injEq] at heq
    obtain ⟨-, -, -, rfl, rfl⟩ := heq
    exact hwritten rfl
  · intro j proposed' history' hmem
    rw [hblocking] at hmem
    obtain ⟨k', hne, hk'⟩ := List.mem_eraseIdx_iff_getElem?.mp hmem
    have hji : j ≠ i := by
      intro heq
      subst heq
      exact hne (h.single k' k _ proposed' proposed history' history hk' hk)
    rw [hset, Slots.next_set, Slots.get_set_ne hji]
    exact h.task j proposed' history' (List.mem_of_getElem? hk')
  · rw [hblocking]
    exact h.single_eraseIdx k

/-- The records of a batch that was written are taken over, and its call goes on. -/
theorem Called.taken {snapshot : SignedControlSnapshot} {verified : VerifiedControlSnapshot}
    {proposed : ControlTrustState} {history : List RelayHistoryRecord} {after : Call}
    (h : Called p store)
    (hcall : p.calls.get i = some ⟨snapshot, verified, .committing proposed history (some true)⟩)
    (hblocking : p'.blocking = p.blocking) (hset : p'.calls = p.calls.set i (some after))
    (hafter : after.committing = false) : Called p' store := by
  have hheld : p.historyLock = some i := h.locked i _ hcall rfl
  have hidle : ∀ j call, p'.calls.get j = some call → call.committing = false := by
    intro j call hget
    rw [hset] at hget
    rcases Slots.get_set_cases hget with ⟨-, hnew, -⟩ | ⟨hne, hold⟩
    · rw [← Option.some.inj hnew]
      exact hafter
    · by_contra hcommitting
      have hheld' := h.locked j call hold (by simpa using hcommitting)
      rw [hheld] at hheld'
      exact hne (Option.some.inj hheld').symm
  refine ⟨?_, ?_, ?_, ?_, ?_⟩
  · intro j call hget hcommitting
    rw [hidle j call hget] at hcommitting
    cases hcommitting
  · intro j snapshot' verified' proposed' history' outcome hget
    cases hidle j _ hget
  · intro j snapshot' verified' proposed' history' hget
    cases hidle j _ hget
  · intro j proposed' history' hmem
    rw [hblocking] at hmem
    obtain ⟨hlt, htask⟩ := h.task j proposed' history' hmem
    have hji : j ≠ i := by
      intro heq
      subst heq
      obtain ⟨snapshot', verified', heq⟩ := htask _ hcall
      cases heq
    rw [hset, Slots.next_set, Slots.get_set_ne hji]
    exact ⟨hlt, htask⟩
  · rw [hblocking]
    exact h.single

theorem Called.loaded (hcalls : p.calls = {}) (hblocking : p.blocking = []) : Called p store := by
  have hnone : ∀ (i : ℕ) (call : Call), p.calls.get i ≠ some call := by
    intro i call
    rw [hcalls]
    simp
  refine ⟨?_, ?_, ?_, ?_, ?_⟩
  · exact fun i call hget => absurd hget (hnone i call)
  · exact fun i _ _ _ _ _ hget => absurd hget (hnone i _)
  · exact fun i _ _ _ _ hget => absurd hget (hnone i _)
  · intro i proposed history hmem
    rw [hblocking] at hmem
    cases hmem
  · intro k k' i proposed proposed' history history' hk
    rw [hblocking] at hk
    cases hk

end Calls

section Steps
variable {env : Installation} {p p' : Process} {t : Trail} {store : Store} {i : ℕ}

/-- What holds of a process between its steps. -/
def Filed (p : Process) (t : Trail) (store : Store) : Prop := Recorded p t store ∧ Called p store

namespace Filed

theorem same (h : Filed p t store) : Filed p (t.move p p) store :=
  ⟨h.1.frame rfl (List.append_nil _).symm (fun _ => List.not_mem_nil) fun _ _ _ hget => hget, h.2⟩

theorem set {call : Call} {c : Option Call} (h : Filed p t store)
    (hhistory : p'.relayHistory = p.relayHistory) (hblocking : p'.blocking = p.blocking)
    (hset : p'.calls = p.calls.set i c) (hcall : p.calls.get i = some call)
    (hlanded : call.landed = false)
    (hc : ∀ after, c = some after → after.committing = false ∧ call.committing = false)
    (hlock : ∀ j, j ≠ i → p.historyLock = some j → p'.historyLock = some j) :
    Filed p' (t.move p p') store := by
  refine ⟨?_, h.2.set hhistory hblocking hset hcall hc hlock⟩
  have hsame : p'.blocking = p.blocking ++ [] := by
    rw [hblocking, List.append_nil]
  apply h.1.frame hhistory hsame fun _ => List.not_mem_nil
  intro j before hbefore hget
  have hne : j ≠ i := by
    rintro rfl
    rw [hcall] at hget
    rw [Option.some.inj hget, hbefore] at hlanded
    cases hlanded
  rw [hset, Slots.get_set_ne hne]
  exact hget

theorem receive (h : Filed p t store) (snapshot : SignedControlSnapshot)
    (relayId relaySpki : String) (now later : ℕ) :
    Filed (p.receive env snapshot relayId relaySpki now later)
      (t.move p (p.receive env snapshot relayId relaySpki now later)) store := by
  unfold Process.receive
  split
  · exact h.same
  · next verified hv =>
    split
    · have hfalse : Call.committing ⟨snapshot, verified, .verified⟩ = false := rfl
      refine ⟨?_, h.2.push hfalse rfl rfl rfl rfl⟩
      refine h.1.frame rfl (List.append_nil _).symm (fun _ => List.not_mem_nil) ?_
      exact fun j before _ hget => Slots.get_push_of_some hget
    · exact h.same

theorem lock (h : Filed p t store) (hlock : p.lock i = some p') :
    Filed p' (t.move p p') store := by
  unfold Process.lock at hlock
  split at hlock
  case h_2 => cases hlock
  next snapshot verified hcall hfree =>
  split at hlock
  · next proposed haccept =>
    obtain rfl := Option.some.inj hlock
    refine h.set rfl rfl rfl hcall rfl (fun after hafter => ?_) fun j _ hheld => hheld
    rw [← Option.some.inj hafter]
    exact ⟨rfl, rfl⟩
  · obtain rfl := Option.some.inj hlock
    exact h.set rfl rfl rfl hcall rfl (fun after hafter => by cases hafter) fun j _ hheld => hheld

theorem openHistory {now : ℕ} (h : Filed p t store) (hopen : p.openHistory i now = some p') :
    Filed p' (t.move p p') store := by
  unfold Process.openHistory at hopen
  split at hopen
  case h_2 => cases hopen
  next snapshot verified proposed hcall hfree =>
  obtain rfl := Option.some.inj hopen
  refine ⟨?_, h.2.opened hcall hfree rfl rfl rfl rfl⟩
  refine h.1.frame rfl rfl ?_ ?_
  · intro clone hmem
    cases List.mem_singleton.mp hmem
  · intro j before hbefore hget
    have hcommitting := Call.committing_of_landed hbefore
    rw [h.2.no_committing hfree hget] at hcommitting
    cases hcommitting

theorem publish (h : Filed p t store) (hpublish : p.publish i = some p') :
    Filed p' (t.move p p') store := by
  unfold Process.publish at hpublish
  split at hpublish
  case h_2 => cases hpublish
  next snapshot verified view rest hcall =>
  obtain rfl := Option.some.inj hpublish
  refine h.set rfl rfl rfl hcall rfl (fun after hafter => ?_) fun j _ hheld => hheld
  cases rest with
  | nil => cases hafter
  | cons view' rest' =>
    rw [← Option.some.inj hafter]
    exact ⟨rfl, rfl⟩

/-- A call is dropped before its batch is written. -/
theorem cancel {call : Call} (h : Filed p t store) (hcall : p.calls.get i = some call)
    (hlanded : call.landed = false) :
    Filed ((p.release i).setCall i none) (t.move p ((p.release i).setCall i none)) store := by
  refine h.set rfl rfl rfl hcall hlanded (fun after hafter => by cases hafter) fun j hne hheld => ?_
  show (if p.historyLock = some i then none else p.historyLock) = some j
  rw [if_neg (by rw [hheld]; exact fun heq => hne (Option.some.inj heq)), hheld]

/-- A success or a failure is recorded. -/
theorem recordRelay {pick : RelayHistoryRecord → Bool}
    {update : RelayHistoryRecord → RelayHistoryRecord} {persist : RelayHistoryRecord → Bool}
    (h : Filed p t store) (hid : ∀ record, (update record).relayId = record.relayId)
    (hmatch : ∀ record : RelayHistoryRecord, record.Matches (update record))
    (hrecord : p.recordRelay pick update persist = some p') : Filed p' (t.move p p') store := by
  unfold Process.recordRelay at hrecord
  split_ifs at hrecord with hheld
  have hfree : p.historyLock = none := by simpa using hheld
  split at hrecord
  case h_2 =>
    obtain rfl := Option.some.inj hrecord
    exact h.same
  next n record hn hfound =>
  obtain rfl := Option.some.inj hrecord
  have hget : p.relayHistory[n]? = some record := by
    rw [List.find?_eq_bind_findIdx?_getElem?, hn] at hfound
    exact hfound
  have hafter : ∀ m, (p.relayHistory.modify n update)[m]? =
      (p.relayHistory[m]?).map fun record => if n = m then update record else record :=
    fun m => List.getElem?_modify ..
  refine ⟨h.1.move ?_ ?_ ?_ rfl ?_ fun _ _ _ hcall => hcall, h.2.record hfree rfl rfl ?_⟩
  · rw [ids_modify hid]
    exact h.1.nodup
  · intro record' hmem
    obtain ⟨m, hm⟩ := List.getElem?_of_mem hmem
    rw [hafter m] at hm
    obtain ⟨before, hbefore, rfl⟩ := Option.map_eq_some_iff.mp hm
    refine ⟨before, List.mem_of_getElem? hbefore, ?_⟩
    split_ifs
    · exact ⟨(hid before).symm, hmatch before⟩
    · exact ⟨rfl, .refl before⟩
  · intro record hmem
    have hids : record.relayId ∈ (p.relayHistory.modify n update).map (·.relayId) := by
      rw [ids_modify hid]
      exact List.mem_map_of_mem hmem
    exact List.mem_map.mp hids
  · intro clone hmem
    split_ifs at hmem
    · have hclone : clone = update record := BlockingTask.relay.inj (List.mem_singleton.mp hmem)
      have hm := hafter n
      rw [hget, Option.map_some, if_pos rfl] at hm
      rw [hclone]
      exact List.mem_of_getElem? hm
    · cases hmem
  · intro i proposed history hmem
    split_ifs at hmem
    · cases List.mem_singleton.mp hmem
    · cases hmem

theorem recordRelaySuccess {relayId : String} {now : ℕ} (h : Filed p t store)
    (hrecord : p.recordRelaySuccess relayId now = some p') : Filed p' (t.move p p') store := by
  refine h.recordRelay ?_ ?_ hrecord
  · exact fun record => rfl
  · exact fun record => ⟨rfl, rfl, rfl, rfl⟩

theorem recordRelayFailure {relay : RelayCandidate} {now : ℕ} (h : Filed p t store)
    (hrecord : p.recordRelayFailure relay now = some p') : Filed p' (t.move p p') store := by
  refine h.recordRelay ?_ ?_ hrecord
  · exact fun record => rfl
  · exact fun record => ⟨rfl, rfl, rfl, rfl⟩

/-- A call goes on after its batch was written, or failed. -/
theorem resume {r : Process × Option VerifiedControlSnapshot} (h : Filed p t store)
    (hresume : p.resume i = some r) : Filed r.1 ((t.resume p i).observe r.1) store := by
  unfold Process.resume at hresume
  split at hresume
  · next snapshot verified proposed history hcall =>
    obtain rfl := Option.some.inj hresume
    obtain ⟨now, rfl⟩ := h.2.proposes i snapshot verified proposed history _ hcall
    refine ⟨h.1.taken (nodup_proposedHistory h.1.nodup)
      (fun record hmem => exists_proposedHistory hmem) rfl rfl rfl ?_ ?_, ?_⟩
    · show (if (p.calls.get i).any Call.landed then _ else _) = _
      rw [hcall]
      rfl
    · exact h.2.written i snapshot verified proposed _ hcall
    · exact h.2.taken hcall rfl rfl rfl
  · next snapshot verified proposed history hcall =>
    obtain rfl := Option.some.inj hresume
    have hset : Filed ((p.release i).setCall i none)
        (t.move p ((p.release i).setCall i none)) store := h.cancel hcall rfl
    have htrail : (t.resume p i).observe ((p.release i).setCall i none) =
        t.move p ((p.release i).setCall i none) := by
      unfold Trail.resume Trail.move Trail.observe
      simp [hcall, Process.release, Process.setCall, Call.landed]
    rw [htrail]
    exact hset
  · cases hresume

/-- A task runs in order. -/
theorem commit {k : ℕ} {ok : Bool} {task : BlockingTask} {disk : Disk} (h : Filed p t disk.store)
    (hk : p.blocking[k]? = some task)
    (hrelay : ∀ clone n, ok = true → task = .relay clone → t.stamps[k]? = some n →
      t.persisted clone.relayId ≤ n ∧ ∀ i call, p.calls.get i = some call → call.landed = false)
    (hcontrol : ∀ i proposed history, ok = true → task = .control i proposed history →
      (p.calls.get i).isSome) :
    Filed ({ p with blocking := p.blocking.eraseIdx k }.complete task ok) (t.commit p k ok)
      (if ok then { disk with store := task.applyImmediate disk.store } else disk).store := by
  have hlt : k < p.blocking.length := (List.getElem?_eq_some_iff.mp hk).1
  cases task with
  | relay clone =>
    cases ok with
    | false =>
      exact ⟨h.1.erase rfl rfl hlt rfl rfl (Trail.persisted_commit_failed k) h.1.unique
        fun hnone => ⟨rfl, hnone⟩, h.2.erase rfl rfl rfl rfl (.inl rfl)⟩
    | true =>
      have hlt' : k < t.stamps.length := by
        rw [h.1.stamps_length]
        exact hlt
      have hn : t.stamps[k]? = some t.stamps[k] := List.getElem?_eq_getElem hlt'
      obtain ⟨hle, hnone⟩ := hrelay clone t.stamps[k] rfl rfl hn
      exact ⟨h.1.wrote rfl rfl hk hn rfl rfl (Trail.persisted_commit_relay hk hn hle) hle hnone,
        h.2.erase rfl rfl rfl rfl (.inr hnone)⟩
  | control i proposed history =>
    have hpersisted : (t.commit p k ok).persisted = t.persisted :=
      Trail.persisted_commit_control hk
    have htask := (h.2.task i proposed history (List.mem_of_getElem? hk)).2
    cases hget : p.calls.get i with
    | none =>
      have hok : ok = false := by
        by_contra hok
        have hsome := hcontrol i proposed history (by simpa using hok) rfl
        rw [hget] at hsome
        cases hsome
      have hcomplete : { p with blocking := p.blocking.eraseIdx k }.complete
          (.control i proposed history) ok = { p with blocking := p.blocking.eraseIdx k } := by
        unfold Process.complete
        simp only [hget]
      subst hok
      rw [hcomplete]
      exact ⟨h.1.erase rfl rfl hlt rfl rfl hpersisted h.1.unique fun hnone => ⟨rfl, hnone⟩,
        h.2.erase rfl rfl rfl rfl (.inl rfl)⟩
    | some call =>
      obtain ⟨snapshot, verified, rfl⟩ := htask call hget
      have hcomplete : { p with blocking := p.blocking.eraseIdx k }.complete
          (.control i proposed history) ok = { p with blocking := p.blocking.eraseIdx k }.setCall i
            (some ⟨snapshot, verified, .committing proposed history (some ok)⟩) := by
        unfold Process.complete
        simp only [hget]
      rw [hcomplete]
      cases ok with
      | false =>
        refine ⟨h.1.erase rfl rfl hlt rfl rfl hpersisted h.1.unique fun hnone => ⟨rfl, ?_⟩,
          h.2.told rfl rfl hk hget rfl rfl nofun⟩
        intro j before hbefore
        by_cases hj : j = i
        · subst hj
          rw [hget] at hbefore
          rw [← Option.some.inj hbefore]
          rfl
        · exact hnone j before ((Slots.get_set_ne hj).trans hbefore)
      | true =>
        obtain ⟨now, hhistory⟩ := h.2.proposes i snapshot verified proposed history none hget
        have hnodup : (history.map (·.relayId)).Nodup := by
          rw [hhistory]
          exact nodup_proposedHistory h.1.nodup
        have hunique : (disk.store.commitSnapshot proposed history).Unique :=
          Store.unique_foldl h.1.unique
        refine ⟨h.1.erase rfl rfl hlt rfl rfl hpersisted hunique fun hnone => ?_,
          h.2.told rfl rfl hk hget rfl rfl fun _ record hmem =>
            Store.record_foldl_of_mem hnodup hmem⟩
        have hlanded := hnone i _ (Slots.get_set_self hget)
        cases hlanded

end Filed

end Steps

theorem Store.unique_commitLoaded {store : Store} (h : store.Unique) (state : ControlTrustState)
    (snapshot : Option VerifiedControlSnapshot) (legacyDigest : Option String) (now : ℕ) :
    (store.commitLoaded state snapshot legacyDigest now).Unique := by
  cases snapshot with
  | none => exact h
  | some snapshot => exact Store.unique_foldl h

theorem unique_loadInitial {env : Installation} {disk : Disk} (h : disk.store.Unique)
    (installed : SignedDeploymentTrust) (now : ℕ) (io : LoadIo) :
    (loadInitial env disk installed now io).2.store.Unique := by
  rcases loadInitial_cases env disk installed now io with
    ⟨error, heq⟩ | ⟨trust, digest, state, -, -, heq⟩
  · rw [heq]
    exact h
  · rw [heq]
    unfold commitInitial
    dsimp only
    generalize (if disk.migratingLegacy then _ else none : Option VerifiedControlSnapshot) = snapshot
    generalize (if disk.migratingLegacy then _ else none : Option String) = migrated
    split_ifs
    · exact h
    · exact h
    · exact Store.unique_commitLoaded h _ _ _ _
    · exact Store.unique_commitLoaded h _ _ _ _
    · exact Store.unique_commitLoaded h _ _ _ _

/-- What holds between the steps of a Travel installation. -/
structure Sys.Filed (s : Sys) (t : Trail) : Prop where
  unique : s.disk.store.Unique
  process : ∀ p, s.process = some p → Control.Filed p t s.disk.store

namespace Sys.Filed
variable {env : Installation} {s s' : Sys} {t : Trail} {a : Action}

/-- A step inside the process. -/
theorem within {f : Process → Option Process} (h : s.Filed t) (hs : s.within f = some s')
    (hcommit : ∀ k ok, a ≠ .commit k ok) (hresume : ∀ i, a ≠ .resume i)
    (hf : ∀ p p', s.process = some p → Control.Filed p t s.disk.store → f p = some p' →
      Control.Filed p' (t.move p p') s.disk.store) : s'.Filed (t.next s a s') := by
  obtain ⟨p', hp', rfl⟩ := Option.map_eq_some_iff.mp hs
  obtain ⟨p, hp, hfp⟩ := Option.bind_eq_some_iff.mp hp'
  refine ⟨h.unique, fun q hq => ?_⟩
  obtain rfl := Option.some.inj hq
  have hnext : t.next s a { s with process := some p' } = t.move p p' := by
    unfold Trail.next
    rw [hp]
    cases a with
    | commit k ok => exact absurd rfl (hcommit k ok)
    | resume i => exact absurd rfl (hresume i)
    | _ => rfl
  rw [hnext]
  exact hf p p' hp (h.process p hp) hfp

theorem start {installed : SignedDeploymentTrust} {now : ℕ} {io : LoadIo} (h : s.Filed t)
    (hs : s.start env installed now io = some s') :
    s'.Filed (t.next s (.start installed now io) s') := by
  have hunique : (loadInitial env s.disk installed now io).2.store.Unique :=
    unique_loadInitial h.unique installed now io
  obtain ⟨hnone, ⟨loaded, -, rfl⟩ | rfl⟩ := Sys.start_cases hs
  · refine ⟨hunique, fun p hp => ?_⟩
    obtain rfl := Option.some.inj hp
    have hnext : ∀ disk p current,
        t.next s (.start installed now io) ⟨disk, some p, current⟩ = ({} : Trail).observe p := by
      intro disk p current
      unfold Trail.next
      rw [hnone]
    rw [hnext]
    exact ⟨.loaded hunique rfl rfl, .loaded rfl rfl⟩
  · refine ⟨hunique, fun p hp => ?_⟩
    have hp : s.process = some p := hp
    rw [hnone] at hp
    cases hp

theorem landed_of_all {calls : Slots Call} {i : ℕ} {call : Call}
    (h : (calls.cells.all fun call => !call.any Call.landed) = true)
    (hget : calls.get i = some call) : call.landed = false := by
  unfold Slots.get at hget
  cases hi : calls.cells[i]? with
  | none => simp [hi] at hget
  | some c =>
    have hc : c = some call := by simpa [hi] using hget
    have hall := List.all_eq_true.mp h c (List.mem_of_getElem? hi)
    simpa [hc] using hall

theorem commit {k : ℕ} {ok : Bool} (h : s.Filed t) (hok : inOrder (s, t) (.commit k ok) = true)
    (hs : s.commit k ok = some s') : s'.Filed (t.next s (.commit k ok) s') := by
  obtain ⟨p, task, hp, hk, rfl⟩ := Sys.commit_cases hs
  have hnext : ∀ disk p', t.next s (.commit k ok) { s with disk := disk, process := some p' } =
      t.commit p k ok := by
    intro disk p'
    unfold Trail.next
    rw [hp]
  have hunique : (if ok then { s.disk with store := task.applyImmediate s.disk.store }
      else s.disk).store.Unique := by
    cases ok with
    | false => exact h.unique
    | true =>
      cases task with
      | relay clone => exact Store.unique_putHistory h.unique
      | control i proposed history => exact Store.unique_foldl h.unique
  refine ⟨hunique, fun q hq => ?_⟩
  obtain rfl := Option.some.inj hq
  rw [hnext]
  apply (h.process p hp).commit hk
  · rintro clone n rfl rfl hn
    simp only [inOrder, hp, hk, hn, Bool.and_eq_true, decide_eq_true_eq] at hok
    exact ⟨hok.1, fun i call hget => landed_of_all hok.2 hget⟩
  · rintro i proposed history rfl rfl
    simpa only [inOrder, hp, hk] using hok

theorem step (h : s.Filed t) (hok : inOrder (s, t) a = true) (hs : s.step env a = some s') :
    s'.Filed (t.next s a s') := by
  cases a with
  | start installed now io => exact h.start hs
  | stop =>
    obtain ⟨p, -, rfl⟩ := Option.map_eq_some_iff.mp hs
    exact ⟨h.unique, fun p hp => by cases hp⟩
  | receive snapshot relayId relaySpki now later =>
    refine h.within hs nofun nofun fun p p' _ hf hp => ?_
    rw [← Option.some.inj hp]
    exact hf.receive snapshot relayId relaySpki now later
  | lock i => exact h.within hs nofun nofun fun p p' _ hf hp => hf.lock hp
  | openHistory i now => exact h.within hs nofun nofun fun p p' _ hf hp => hf.openHistory hp
  | commit k ok => exact h.commit hok hs
  | resume i =>
    obtain ⟨r, hr, rfl⟩ := Option.map_eq_some_iff.mp hs
    obtain ⟨p, hp, hr⟩ := Option.bind_eq_some_iff.mp hr
    refine ⟨h.unique, fun q hq => ?_⟩
    obtain rfl := Option.some.inj hq
    have hnext : ∀ current,
        t.next s (.resume i) { s with process := some r.1, current := current } =
          (t.resume p i).observe r.1 := by
      intro current
      unfold Trail.next
      rw [hp]
    rw [hnext]
    exact (h.process p hp).resume hr
  | publish i => exact h.within hs nofun nofun fun p p' _ hf hp => hf.publish hp
  | cancel i =>
    refine h.within hs nofun nofun fun p p' hp hf hcancel => ?_
    obtain ⟨call, hcall, rfl⟩ := Option.map_eq_some_iff.mp hcancel
    have hlanded : call.landed = false := by simpa [inOrder, hp, hcall] using hok
    exact hf.cancel hcall hlanded
  | relaySuccess relayId now =>
    exact h.within hs nofun nofun fun p p' _ hf hp => hf.recordRelaySuccess hp
  | relayFailure relay now =>
    exact h.within hs nofun nofun fun p p' _ hf hp => hf.recordRelayFailure hp

end Sys.Filed

variable {env : Installation} {disk : Disk} {s : Sys × Trail}

theorem filed_of_inOrder (hdisk : disk.store.Unique)
    (h : (trailed env disk).ReachableWhere (fun s a => inOrder s a = true) s) :
    s.1.Filed s.2 := by
  refine h.invariant (P := fun s => s.1.Filed s.2) ⟨hdisk, fun p hp => by cases hp⟩ ?_
  intro s a s' _ hfiled hok hs
  obtain ⟨next, hnext, rfl⟩ := Option.map_eq_some_iff.mp hs
  exact hfiled.step hok hnext

/-- What a restart reads has the addresses and pins that are in memory. -/
def Process.Reloads (p : Process) (store : Store) : Prop :=
  ∀ loaded ∈ loadRelayHistory store, ∀ record ∈ p.relayHistory, loaded.relayId = record.relayId →
    loaded.managementAddr = record.managementAddr ∧
      loaded.managementSpkiSha256 = record.managementSpkiSha256

/-- When nothing is pending, the disk has the Relay history, as long as no clone was written after
a later state of its record and no call was dropped whose batch is written. -/
theorem durable_of_inOrder (hdisk : disk.store.Unique)
    (h : (trailed env disk).ReachableWhere (fun s a => inOrder s a = true) s) :
    ∀ p, s.1.process = some p → p.Quiet →
      p.Durable s.1.disk.store s.2 ∧ p.Reloads s.1.disk.store := by
  intro p hp hquiet
  have hfiled := filed_of_inOrder hdisk h
  have hrecorded := (hfiled.process p hp).1
  have hnone : ∀ i call, p.calls.get i = some call → call.landed = false := by
    intro i call hget
    by_contra hlanded
    have hcommitting := Call.committing_of_landed (by simpa using hlanded)
    rw [hquiet.2 i call hget] at hcommitting
    cases hcommitting
  have hdurable := hrecorded.durable hnone
  constructor
  · intro record hmem
    obtain ⟨n, past, hstored, hn, hpast⟩ := hdurable record hmem
    refine ⟨past, hstored, hrecorded.same record hmem n past hn hpast, past, ?_, rfl, rfl, rfl⟩
    rw [List.mem_iff_getElem?]
    refine ⟨n - s.2.persisted record.relayId, ?_⟩
    rw [List.getElem?_drop, Nat.add_sub_cancel' hn]
    exact hpast
  · intro loaded hloaded record hmem hid
    obtain ⟨n, past, hstored, hn, hpast⟩ := hdurable record hmem
    have hmatch := hrecorded.same record hmem n past hn hpast
    rw [← hid, record_of_mem_load hfiled.unique hloaded] at hstored
    obtain rfl := Option.some.inj hstored
    exact ⟨hmatch.managementAddr, hmatch.managementSpkiSha256⟩

/-! The Relay of the samples moves with the second snapshot. -/

def movedPayload : ControlSnapshotPayload :=
  { samplePayload 6 with
    relayDirectory :=
      { generation := 6
        relays := [⟨"relay-1", "relay-2.example:8443", "relay-1.example:8444", samplePin '4'⟩] } }

def movingInstallation : Installation :=
  { sampleInstallation with
    controlSnapshot := fun payloadHex =>
      if payloadHex = "05" then some (samplePayload 5)
      else if payloadHex = "06" then some movedPayload
      else none }

/-- The first snapshot is accepted. -/
def settled : List Action :=
  [.start sampleTrust 1000 {}, sampleDelivery "05", .lock 0, .openHistory 0 1000, .commit 0 true,
    .resume 0]

/-- A success is recorded, and the clone of it is written before the Relay moves. -/
def promptSuccess : List Action :=
  settled ++ [.relaySuccess "relay-1" 1000, .commit 0 true, sampleDelivery "06", .lock 1,
    .openHistory 1 1001, .commit 0 true, .resume 1]

/-- The clone is written after the Relay has moved. -/
def lateSuccess : List Action :=
  settled ++ [.relaySuccess "relay-1" 1000, sampleDelivery "06", .lock 1, .openHistory 1 1001,
    .commit 1 true, .resume 1, .commit 0 true]

/-- Whether nothing is pending, and the addresses in memory and on disk. -/
def Sys.addresses (s : Sys) : Option (Bool × Option String × Option String) :=
  s.process.map fun p =>
    (p.blocking.isEmpty && p.calls.cells.all fun call => !call.any Call.committing,
      (p.record "relay-1").map (·.managementAddr),
      (s.disk.store.record "relay-1").map (·.managementAddr))

theorem quiet_of_addresses {s : Sys} {memory stored : Option String}
    (h : s.addresses = some (true, memory, stored)) :
    ∃ p, s.process = some p ∧ p.Quiet ∧ (p.record "relay-1").map (·.managementAddr) = memory ∧
      (s.disk.store.record "relay-1").map (·.managementAddr) = stored := by
  obtain ⟨p, hp, heq⟩ := Option.map_eq_some_iff.mp h
  simp only [Prod.mk.injEq, Bool.and_eq_true] at heq
  refine ⟨p, hp, ⟨List.isEmpty_iff.mp heq.1.1, fun i call hget => ?_⟩, heq.2.1, heq.2.2⟩
  unfold Slots.get at hget
  cases hi : p.calls.cells[i]? with
  | none => simp [hi] at hget
  | some c =>
    have hc : c = some call := by simpa [hi] using hget
    have hall := List.all_eq_true.mp heq.1.2 c (List.mem_of_getElem? hi)
    simpa [hc] using hall

theorem durable_of_inOrder_promptSuccess :
    ∃ s p, (trailed movingInstallation {}).execWhere (fun s a => inOrder s a = true)
      promptSuccess = some s ∧ s.1.process = some p ∧ p.Quiet ∧
      (p.record "relay-1").map (·.managementAddr) = some "relay-2.example:8443" ∧
      p.Durable s.1.disk.store s.2 ∧ p.Reloads s.1.disk.store := by
  have hrun : ((trailed movingInstallation {}).execWhere (fun s a => inOrder s a = true)
      promptSuccess).map (fun s => s.1.addresses) =
        some (some (true, some "relay-2.example:8443", some "relay-2.example:8443")) := by
    decide +kernel
  obtain ⟨s, hs, haddresses⟩ := Option.map_eq_some_iff.mp hrun
  obtain ⟨p, hp, hquiet, hmemory, -⟩ := quiet_of_addresses haddresses
  have hdisk : ({} : Disk).store.Unique := List.nodup_nil
  exact ⟨s, p, hs, hp, hquiet, hmemory,
    durable_of_inOrder hdisk (Machine.reachableWhere_of_execWhere hs) p hp hquiet⟩

/-- The disk has the address again that the accepted snapshot replaced. -/
theorem not_durable_of_reachable :
    (∃ s p, (trailed movingInstallation {}).exec lateSuccess = some s ∧ s.1.process = some p ∧
      p.Quiet ∧ (p.record "relay-1").map (·.managementAddr) = some "relay-2.example:8443" ∧
      (s.1.disk.store.record "relay-1").map (·.managementAddr) = some "relay-1.example:8443") ∧
    ¬ ∀ s, (trailed movingInstallation {}).Reachable s → ∀ p, s.1.process = some p → p.Quiet →
      p.Durable s.1.disk.store s.2 := by
  have hrun : ((trailed movingInstallation {}).exec lateSuccess).map (fun s => s.1.addresses) =
      some (some (true, some "relay-2.example:8443", some "relay-1.example:8443")) := by
    decide +kernel
  obtain ⟨s, hs, haddresses⟩ := Option.map_eq_some_iff.mp hrun
  obtain ⟨p, hp, hquiet, hmemory, hstored⟩ := quiet_of_addresses haddresses
  refine ⟨⟨s, p, hs, hp, hquiet, hmemory, hstored⟩, fun hall => ?_⟩
  have hdurable := hall s (Machine.reachable_of_exec hs) p hp hquiet
  obtain ⟨record, hrecord, haddr⟩ := Option.map_eq_some_iff.mp hmemory
  have hid : record.relayId = "relay-1" := by simpa using List.find?_some hrecord
  obtain ⟨stored, hfound, hmatch, -⟩ := hdurable record (List.mem_of_find?_eq_some hrecord)
  rw [hid] at hfound
  rw [hfound] at hstored
  have heq : stored.managementAddr = "relay-1.example:8443" := Option.some.inj hstored
  rw [hmatch.managementAddr, haddr] at heq
  exact absurd heq (by decide)

end FlowSplice.Control
