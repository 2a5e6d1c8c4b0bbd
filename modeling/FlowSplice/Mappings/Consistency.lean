import FlowSplice.Mappings.Operations

/-! While no call holds the lock, the database, the memory and the listener tasks have the same
mappings, unless a call was dropped after its write had been committed, or before it was. -/
namespace FlowSplice.Mappings

/-- The table and the listener tasks are those of the mappings. `extra` is a task beside them. -/
structure Serves (tasks : Table String ℕ) (listeners : Slots Listener) (mappings : List Mapping)
    (extra : Option ℕ) : Prop where
  found : ∀ m ∈ mappings, ∃ t, tasks.lookup (mappingKey m) = some t ∧
    listeners.get t = some { mapping := m }
  table : ∀ key t, tasks.lookup key = some t → (∃ m ∈ mappings, mappingKey m = key) ∧ extra ≠ some t
  listed : ∀ t listener, listeners.get t = some listener →
    extra = some t ∨ ∃ m ∈ mappings, tasks.lookup (mappingKey m) = some t

/-- The call is between the lock and its return. -/
def Phase.Holds : Phase → Bool
  | .queued | .returned _ | .dropped => false
  | _ => true

variable {config : Config} {tasks : Table String ℕ} {listeners : Slots Listener}
  {mappings next : List Mapping} {extra : Option ℕ} {mapping m : Mapping} {listener : Listener}
  {t : ℕ} {k : String}

namespace Serves

theorem listener_of (h : Serves tasks listeners mappings extra) (hlookup : tasks.lookup k = some t) :
    ∃ m ∈ mappings, mappingKey m = k ∧ listeners.get t = some { mapping := m } := by
  obtain ⟨m, hm, hkey⟩ := (h.table k t hlookup).1
  obtain ⟨t', hlookup', hget⟩ := h.found m hm
  rw [hkey, hlookup] at hlookup'
  rw [← Option.some.inj hlookup'] at hget
  exact ⟨m, hm, hkey, hget⟩

/-- A task is in the table under one key. -/
theorem key_unique {k' : String} (h : Serves tasks listeners mappings extra)
    (hlookup : tasks.lookup k = some t) (hlookup' : tasks.lookup k' = some t) : k = k' := by
  obtain ⟨m, -, hkey, hget⟩ := h.listener_of hlookup
  obtain ⟨m', -, hkey', hget'⟩ := h.listener_of hlookup'
  rw [hget] at hget'
  have hsame : m = m' := congrArg Listener.mapping (Option.some.inj hget')
  rw [← hkey, ← hkey', hsame]

/-- A new task is beside those of the mappings. -/
theorem push (h : Serves tasks listeners mappings none) :
    Serves tasks (listeners.push listener) mappings (some listeners.next) := by
  refine ⟨?_, ?_, ?_⟩
  · intro m hm
    obtain ⟨t, hlookup, hget⟩ := h.found m hm
    exact ⟨t, hlookup, Slots.get_push_of_some hget⟩
  · intro key t hlookup
    obtain ⟨m, -, -, hget⟩ := h.listener_of hlookup
    have hlt := Slots.lt_next_of_get hget
    refine ⟨(h.table key t hlookup).1, fun heq => ?_⟩
    have heq : listeners.next = t := Option.some.inj heq
    omega
  · intro t l hget
    rcases Slots.get_push_cases hget with ⟨hnew, -⟩ | ⟨-, hold⟩
    · exact .inl (by rw [hnew])
    · rcases h.listed t l hold with hextra | hlisted
      · cases hextra
      · exact .inr hlisted

/-- The task beside the others can do what it likes. -/
theorem set {c : Option Listener} (h : Serves tasks listeners mappings (some t)) :
    Serves tasks (listeners.set t c) mappings (some t) := by
  refine ⟨?_, h.table, ?_⟩
  · intro m hm
    obtain ⟨t', hlookup, hget⟩ := h.found m hm
    have hne : t' ≠ t := fun heq => (h.table _ _ hlookup).2 (by rw [heq])
    exact ⟨t', hlookup, by rw [Slots.get_set_ne hne, hget]⟩
  · intro t' l hget
    rcases Slots.get_set_cases hget with ⟨heq, -, -⟩ | ⟨-, hold⟩
    · exact .inl (by rw [heq])
    · exact h.listed t' l hold

/-- Only the task beside the others can have been told to end. -/
theorem told (h : Serves tasks listeners mappings extra) (hget : listeners.get t = some listener)
    (htold : listener.told = true) : extra = some t := by
  rcases h.listed t listener hget with hextra | ⟨m, hm, hlookup⟩
  · exact hextra
  · obtain ⟨t', hlookup', hget'⟩ := h.found m hm
    rw [hlookup] at hlookup'
    rw [← Option.some.inj hlookup', hget] at hget'
    rw [Option.some.inj hget'] at htold
    cases htold

theorem gone (h : Serves tasks listeners mappings (some t)) (hget : listeners.get t = none) :
    Serves tasks listeners mappings none := by
  refine ⟨h.found, fun key t hlookup => ⟨(h.table key t hlookup).1, by simp⟩, ?_⟩
  intro t' l hget'
  rcases h.listed t' l hget' with hextra | hlisted
  · rw [Option.some.inj hextra, hget'] at hget
    cases hget
  · exact .inr hlisted

/-- The table gets the new task of a mapping, and the task that had its key is left. -/
theorem insert (h : Serves tasks listeners mappings (some t))
    (hget : listeners.get t = some { mapping })
    (hnext : ∀ m, m ∈ next ↔ m = mapping ∨ m ∈ mappings ∧ mappingKey m ≠ mappingKey mapping) :
    Serves (tasks.insert (mappingKey mapping) t) listeners next
      (tasks.lookup (mappingKey mapping)) := by
  refine ⟨?_, ?_, ?_⟩
  · intro m hm
    rcases (hnext m).mp hm with rfl | ⟨hold, hne⟩
    · exact ⟨t, AList.lookup_insert _, hget⟩
    · rw [AList.lookup_insert_ne hne]
      exact h.found m hold
  · intro key t' hlookup
    rcases Table.lookup_insert_cases hlookup with ⟨rfl, rfl⟩ | ⟨hne, hold⟩
    · refine ⟨⟨mapping, (hnext mapping).mpr (.inl rfl), rfl⟩, fun heq => ?_⟩
      exact (h.table _ _ heq).2 rfl
    · obtain ⟨m, hm, hkey⟩ := (h.table key t' hold).1
      refine ⟨⟨m, (hnext m).mpr (.inr ⟨hm, hkey ▸ hne⟩), hkey⟩, fun heq => ?_⟩
      exact hne (h.key_unique hold heq)
  · intro t' l hget'
    rcases h.listed t' l hget' with hextra | ⟨m, hm, hlookup⟩
    · right
      refine ⟨mapping, (hnext mapping).mpr (.inl rfl), ?_⟩
      rw [AList.lookup_insert, hextra]
    · by_cases hkey : mappingKey m = mappingKey mapping
      · left
        rw [← hkey]
        exact hlookup
      · right
        refine ⟨m, (hnext m).mpr (.inr ⟨hm, hkey⟩), ?_⟩
        rw [AList.lookup_insert_ne hkey]
        exact hlookup

/-- The table loses the task of a key, and that task is left. -/
theorem erase (h : Serves tasks listeners mappings none)
    (hnext : ∀ m, m ∈ next ↔ m ∈ mappings ∧ mappingKey m ≠ k) :
    Serves (tasks.erase k) listeners next (tasks.lookup k) := by
  refine ⟨?_, ?_, ?_⟩
  · intro m hm
    obtain ⟨hold, hne⟩ := (hnext m).mp hm
    rw [AList.lookup_erase_ne hne]
    exact h.found m hold
  · intro key t' hlookup
    obtain ⟨hne, hold⟩ := Table.lookup_erase_cases hlookup
    obtain ⟨m, hm, hkey⟩ := (h.table key t' hold).1
    refine ⟨⟨m, (hnext m).mpr ⟨hm, hkey ▸ hne⟩, hkey⟩, fun heq => ?_⟩
    exact hne (h.key_unique hold heq)
  · intro t' l hget'
    rcases h.listed t' l hget' with hextra | ⟨m, hm, hlookup⟩
    · cases hextra
    · by_cases hkey : mappingKey m = k
      · left
        rw [← hkey]
        exact hlookup
      · right
        refine ⟨m, (hnext m).mpr ⟨hm, hkey⟩, ?_⟩
        rw [AList.lookup_erase_ne hkey]
        exact hlookup

end Serves

namespace Sys

/-- The write of the call is committed, and the call has not returned. -/
def Committed (s : Sys) (operation : Operation) : Prop :=
  match operation.phase with
  | .persisting _ w => ∃ write ∈ s.writes.get w, write.outcome = .committed
  | .storing .. | .publishing .. | .stopping .. => True
  | _ => False

/-- No write is committed for a call that has been dropped, and no call is dropped between the commit
of its write and its return. -/
def Kept (s : Sys) : Action → Prop
  | .written w none => ∀ write ∈ s.writes.get w, ∀ operation ∈ s.operations.get write.operation,
    operation.phase ≠ .dropped
  | .drop i => ∀ operation ∈ s.operations.get i, ¬ s.Committed operation
  | _ => True

instance (s : Sys) (operation : Operation) : Decidable (s.Committed operation) :=
  match h : operation.phase with
  | .persisting _ w => decidable_of_iff (∃ write ∈ s.writes.get w, write.outcome = .committed)
      (by unfold Committed; rw [h])
  | .storing .. => .isTrue (by unfold Committed; rw [h]; trivial)
  | .publishing .. => .isTrue (by unfold Committed; rw [h]; trivial)
  | .stopping .. => .isTrue (by unfold Committed; rw [h]; trivial)
  | .queued => .isFalse (by unfold Committed; rw [h]; exact id)
  | .locked => .isFalse (by unfold Committed; rw [h]; exact id)
  | .binding _ => .isFalse (by unfold Committed; rw [h]; exact id)
  | .returned _ => .isFalse (by unfold Committed; rw [h]; exact id)
  | .dropped => .isFalse (by unfold Committed; rw [h]; exact id)

instance (s : Sys) : (a : Action) → Decidable (s.Kept a)
  | .written w none => inferInstanceAs (Decidable (∀ write ∈ s.writes.get w,
      ∀ operation ∈ s.operations.get write.operation, operation.phase ≠ .dropped))
  | .drop i => inferInstanceAs (Decidable (∀ operation ∈ s.operations.get i,
      ¬ s.Committed operation))
  | .written _ (some _) | .call _ | .lock _ | .read _ | .bound .. | .resume _ | .store _
  | .publish _ | .stopped _ | .listenerEnds _ => .isTrue trivial

/-- What holds while a call has the lock, by where it waits. -/
def Midway (config : Config) (s : Sys) (i : ℕ) (request : Request) : Phase → Prop
  | .locked => s.durable = s.mappings ∧ Serves s.tasks s.listeners s.mappings none
  | .binding c => s.durable = s.mappings ∧ Serves s.tasks s.listeners s.mappings none ∧
    change config s.mappings request = .ok (some c)
  | .persisting c w => Serves s.tasks s.listeners s.mappings none ∧
    change config s.mappings request = .ok (some c) ∧
    ∃ write, s.writes.get w = some write ∧ write.operation = i ∧ write.mappings = c.next ∧
      s.durable = if write.outcome = .committed then c.next else s.mappings
  | .storing c task => s.durable = c.next ∧ Serves s.tasks s.listeners s.mappings task ∧
    change config s.mappings request = .ok (some c) ∧
    match request with
    | .upsert mapping => ∃ t, task = some t ∧ s.listeners.get t = some { mapping }
    | .delete .. => task = none
  | .publishing c old => s.durable = c.next ∧ Serves s.tasks s.listeners c.next old ∧
    validateMappingSet config c.next = .ok ()
  | .stopping _ t => s.durable = s.mappings ∧ Serves s.tasks s.listeners s.mappings (some t)
  | _ => False

/-- A write that is not done belongs to a call that waits for it or has been dropped. -/
def Pending (s : Sys) : Prop :=
  ∀ w write, s.writes.get w = some write → write.outcome = .pending →
    ∃ operation, s.operations.get write.operation = some operation ∧
      (operation.phase = .dropped ∨
        ∃ c, operation.phase = .persisting c w ∧ write.mappings = c.next)

structure Inv (config : Config) (s : Sys) : Prop where
  valid : validateMappingSet config s.mappings = .ok ()
  holder : ∀ i operation, s.operations.get i = some operation → operation.phase.Holds = true →
    s.lock = some i
  free : s.lock = none → s.durable = s.mappings ∧ Serves s.tasks s.listeners s.mappings none
  held : ∀ i, s.lock = some i → ∃ operation, s.operations.get i = some operation ∧
    s.Midway config i operation.request operation.phase
  pending : s.Pending

variable {s s' : Sys} {i w : ℕ} {operation : Operation} {phase : Phase} {c : Change}

theorem Midway.holds (h : s.Midway config i operation.request phase) : phase.Holds = true := by
  cases phase with
  | queued => exact h.elim
  | returned result => exact h.elim
  | dropped => exact h.elim
  | _ => rfl

theorem Inv.midway (hi : Inv config s) (hget : s.operations.get i = some operation)
    (hholds : operation.phase.Holds = true) :
    s.lock = some i ∧ s.Midway config i operation.request operation.phase := by
  have hlock := hi.holder i operation hget hholds
  obtain ⟨operation', hget', hmidway⟩ := hi.held i hlock
  rw [hget] at hget'
  rw [Option.some.inj hget']
  exact ⟨hlock, Option.some.inj hget' ▸ hmidway⟩

/-- The holder of the lock goes on. -/
theorem Inv.advance (hi : Inv config s) (hget : s.operations.get i = some operation)
    (hlock : s.lock = some i ∨ s.lock = none)
    (hoperations : s'.operations = s.operations.set i (some { operation with phase }))
    (hlock' : s'.lock = some i) (hvalid : validateMappingSet config s'.mappings = .ok ())
    (hmidway : s'.Midway config i operation.request phase) (hpending : s'.Pending) :
    Inv config s' := by
  have hself : s'.operations.get i = some { operation with phase } := by
    rw [hoperations, Slots.get_set_self hget]
  refine ⟨hvalid, ?_, ?_, ?_, hpending⟩
  · intro j other hother hholds
    rw [hoperations] at hother
    rcases Slots.get_set_cases hother with ⟨rfl, -, -⟩ | ⟨hne, hold⟩
    · exact hlock'
    · have hheld := hi.holder j other hold hholds
      rcases hlock with hlock | hlock
      · rw [hlock] at hheld
        exact absurd (Option.some.inj hheld).symm hne
      · rw [hlock] at hheld
        cases hheld
  · intro hnone
    rw [hlock'] at hnone
    cases hnone
  · intro j hj
    rw [hlock'] at hj
    rw [← Option.some.inj hj]
    exact ⟨_, hself, hmidway⟩

/-- The holder of the lock returns or is dropped. -/
theorem Inv.release (hi : Inv config s) (hlock : s.lock = some i)
    (hoperations : s'.operations = s.operations.set i (some { operation with phase }))
    (hphase : phase.Holds = false) (hlock' : s'.lock = none)
    (hvalid : validateMappingSet config s'.mappings = .ok ())
    (hfree : s'.durable = s'.mappings ∧ Serves s'.tasks s'.listeners s'.mappings none)
    (hpending : s'.Pending) : Inv config s' := by
  refine ⟨hvalid, ?_, fun _ => hfree, ?_, hpending⟩
  · intro j other hother hholds
    rw [hoperations] at hother
    rcases Slots.get_set_cases hother with ⟨-, hother, -⟩ | ⟨hne, hold⟩
    · rw [← Option.some.inj hother] at hholds
      rw [hphase] at hholds
      cases hholds
    · have hheld := hi.holder j other hold hholds
      rw [hlock] at hheld
      exact absurd (Option.some.inj hheld).symm hne
  · intro j hj
    rw [hlock'] at hj
    cases hj

/-- A call that does not wait for a write goes on. -/
theorem Pending.setPhase (h : s.Pending) (hget : s.operations.get i = some operation)
    (hdropped : operation.phase ≠ .dropped)
    (hwrite : ∀ c w write, operation.phase = .persisting c w → s.writes.get w = some write →
      write.outcome = .pending → phase = .dropped)
    (hoperations : s'.operations = s.operations.set i (some { operation with phase }))
    (hwrites : s'.writes = s.writes) : s'.Pending := by
  intro w write hw hp
  rw [hwrites] at hw
  obtain ⟨other, hother, hwait⟩ := h w write hw hp
  rw [hoperations]
  by_cases hi : write.operation = i
  · rw [hi, hget] at hother
    rw [← Option.some.inj hother] at hwait
    rcases hwait with hgone | ⟨c, hphase, -⟩
    · exact absurd hgone hdropped
    · rw [hi, Slots.get_set_self hget]
      exact ⟨_, rfl, .inl (hwrite c w write hphase hw hp)⟩
  · rw [Slots.get_set_ne hi]
    exact ⟨other, hother, hwait⟩

/-- A call that hands out a write waits for it. -/
theorem Pending.persist (h : s.Pending) (hget : s.operations.get i = some operation)
    (hdropped : operation.phase ≠ .dropped) (hwrite : ∀ c w, operation.phase ≠ .persisting c w) :
    (s.persist i operation c).Pending := by
  intro w write hw hp
  show ∃ operation', (s.operations.set i _).get write.operation = some operation' ∧ _
  rcases Slots.get_push_cases hw with ⟨hnew, hwrite⟩ | ⟨-, hold⟩
  · rw [hwrite, hnew]
    exact ⟨_, Slots.get_set_self hget, .inr ⟨c, rfl, rfl⟩⟩
  · obtain ⟨other, hother, hwait⟩ := h w write hold hp
    by_cases hi : write.operation = i
    · rw [hi, hget] at hother
      rw [← Option.some.inj hother] at hwait
      rcases hwait with hgone | ⟨c, hphase, -⟩
      · exact absurd hgone hdropped
      · exact absurd hphase (hwrite c w)
    · rw [Slots.get_set_ne hi]
      exact ⟨other, hother, hwait⟩

/-- A call that holds nothing is there, and stays without it. -/
theorem Inv.passive (hi : Inv config s)
    (hoperations : ∀ j other, s'.operations.get j = some other → other.phase.Holds = true →
      s.operations.get j = some other)
    (hkept : ∀ j other, s.operations.get j = some other → other.phase.Holds = true →
      s'.operations.get j = some other)
    (hmappings : s'.mappings = s.mappings) (hdurable : s'.durable = s.durable)
    (htasks : s'.tasks = s.tasks) (hlisteners : s'.listeners = s.listeners)
    (hwrites : s'.writes = s.writes) (hlock : s'.lock = s.lock) (hpending : s'.Pending) :
    Inv config s' := by
  refine ⟨hmappings ▸ hi.valid, ?_, ?_, ?_, hpending⟩
  · intro j other hother hholds
    rw [hlock]
    exact hi.holder j other (hoperations j other hother hholds) hholds
  · rw [hlock, hdurable, hmappings, htasks, hlisteners]
    exact hi.free
  · intro j hj
    rw [hlock] at hj
    obtain ⟨other, hother, hmidway⟩ := hi.held j hj
    refine ⟨other, hkept j other hother hmidway.holds, ?_⟩
    cases hphase : other.phase with
    | queued => exact (hphase ▸ hmidway : Midway config s j other.request .queued).elim
    | returned result => exact (hphase ▸ hmidway : Midway config s j other.request (.returned result)).elim
    | dropped => exact (hphase ▸ hmidway : Midway config s j other.request .dropped).elim
    | _ =>
      rw [hphase] at hmidway
      simpa only [Midway, hmappings, hdurable, htasks, hlisteners, hwrites] using hmidway

theorem Inv.call {request : Request} (hi : Inv config s) :
    Inv config { s with operations := s.operations.push { request } } := by
  refine hi.passive ?_ ?_ rfl rfl rfl rfl rfl rfl ?_
  · intro j other hother hholds
    rcases Slots.get_push_cases hother with ⟨-, hnew⟩ | ⟨-, hold⟩
    · rw [hnew] at hholds
      cases hholds
    · exact hold
  · intro j other hother _
    exact Slots.get_push_of_some hother
  · intro w write hw hp
    obtain ⟨other, hother, hwait⟩ := hi.pending w write hw hp
    exact ⟨other, Slots.get_push_of_some hother, hwait⟩

theorem Inv.lock (hi : Inv config s) (hget : s.operations.get i = some operation)
    (hphase : operation.phase = .queued) (hfree : s.lock = none) :
    Inv config { s.setPhase i operation .locked with lock := some i } := by
  refine hi.advance hget (.inr hfree) rfl rfl hi.valid (hi.free hfree) ?_
  refine hi.pending.setPhase hget ?_ ?_ rfl rfl
  · rw [hphase]
    exact fun h => by cases h
  · intro c w write hpersisting
    rw [hphase] at hpersisting
    cases hpersisting

theorem Inv.finish {result : Except MappingError Mapping} (hi : Inv config s)
    (hget : s.operations.get i = some operation) (hlock : s.lock = some i)
    (hfree : s.durable = s.mappings ∧ Serves s.tasks s.listeners s.mappings none)
    (hdropped : operation.phase ≠ .dropped)
    (hwrite : ∀ c w write, operation.phase = .persisting c w → s.writes.get w = some write →
      write.outcome ≠ .pending) : Inv config (s.finish i operation result) := by
  refine hi.release hlock rfl rfl rfl hi.valid hfree ?_
  refine hi.pending.setPhase hget hdropped ?_ rfl rfl
  intro c w write hphase hw hp
  exact absurd hp (hwrite c w write hphase hw)

theorem Inv.persist (hi : Inv config s) (hget : s.operations.get i = some operation)
    (hlock : s.lock = some i)
    (hfree : s.durable = s.mappings ∧ Serves s.tasks s.listeners s.mappings none)
    (hchange : change config s.mappings operation.request = .ok (some c))
    (hdropped : operation.phase ≠ .dropped) (hwrite : ∀ c w, operation.phase ≠ .persisting c w) :
    Inv config (s.persist i operation c) := by
  refine hi.advance hget (.inl hlock) rfl hlock hi.valid ?_ (hi.pending.persist hget hdropped hwrite)
  refine ⟨hfree.2, hchange, { operation := i, mappings := c.next }, ?_, rfl, rfl, hfree.1⟩
  show (s.writes.push { operation := i, mappings := c.next }).get s.writes.next = some _
  rw [Slots.get_push, if_pos rfl]

theorem Inv.read (hi : Inv config s) (hget : s.operations.get i = some operation)
    (hphase : operation.phase = .locked) : Inv config (s.read config i operation) := by
  have hholds : operation.phase.Holds = true := by rw [hphase]; rfl
  obtain ⟨hlock, hmidway⟩ := hi.midway hget hholds
  rw [hphase] at hmidway
  have hdropped : operation.phase ≠ .dropped := by rw [hphase]; exact fun h => by cases h
  have hwrite : ∀ c w, operation.phase ≠ .persisting c w := by
    intro c w h
    rw [hphase] at h
    cases h
  have hfinish : ∀ result, Inv config (s.finish i operation result) := fun result =>
    hi.finish hget hlock hmidway hdropped fun c w _ h => absurd h (hwrite c w)
  unfold Sys.read
  cases hchange : change config s.mappings operation.request with
  | error error => exact hfinish _
  | ok found =>
    cases found with
    | none =>
      cases operation.request with
      | upsert mapping => exact hfinish _
      | delete homeId serviceId protocol => exact hi
    | some c =>
      cases hrequest : operation.request with
      | upsert mapping =>
        refine hi.advance hget (.inl hlock) rfl hlock hi.valid ⟨hmidway.1, hmidway.2, hchange⟩ ?_
        exact hi.pending.setPhase hget hdropped (fun c w _ h => absurd h (hwrite c w)) rfl rfl
      | delete homeId serviceId protocol =>
        exact hi.persist hget hlock hmidway hchange hdropped hwrite

theorem Inv.bound {failure : Option String} (hi : Inv config s)
    (hget : s.operations.get i = some operation) (hphase : operation.phase = .binding c) :
    Inv config (match failure with
      | some reason => s.finish i operation (.error (.bindFailed reason))
      | none => s.persist i operation c) := by
  have hholds : operation.phase.Holds = true := by rw [hphase]; rfl
  obtain ⟨hlock, hmidway⟩ := hi.midway hget hholds
  rw [hphase] at hmidway
  obtain ⟨hdurable, hserves, hchange⟩ := hmidway
  have hdropped : operation.phase ≠ .dropped := by rw [hphase]; exact fun h => by cases h
  have hwrite : ∀ c w, operation.phase ≠ .persisting c w := by
    intro c w h
    rw [hphase] at h
    cases h
  cases failure with
  | none => exact hi.persist hget hlock ⟨hdurable, hserves⟩ hchange hdropped hwrite
  | some reason =>
    exact hi.finish hget hlock ⟨hdurable, hserves⟩ hdropped fun c w _ h => absurd h (hwrite c w)

/-- A write that ends has ended for its call. -/
theorem Pending.written {write : Write} {durable : List Mapping} {outcome : Outcome}
    (h : s.Pending) (hdone : outcome ≠ .pending) :
    Pending { s with durable, writes := s.writes.set w (some { write with outcome }) } := by
  intro w' write' hw' hp
  rcases Slots.get_set_cases hw' with ⟨-, hnew, -⟩ | ⟨-, hold⟩
  · rw [← Option.some.inj hnew] at hp
    exact absurd hp hdone
  · exact h w' write' hold hp

/-- A write that fails changes nothing. -/
theorem Inv.failed {write : Write} {reason : String} (hi : Inv config s)
    (hget : s.writes.get w = some write) (hpending : write.outcome = .pending) :
    Inv config { s with
      writes := s.writes.set w (some { write with outcome := .failed reason }) } := by
  refine ⟨hi.valid, hi.holder, hi.free, ?_, hi.pending.written fun h => (by cases h)⟩
  intro j hj
  obtain ⟨other, hother, hmidway⟩ := hi.held j hj
  refine ⟨other, hother, ?_⟩
  cases hphase : other.phase with
  | persisting c w' =>
    rw [hphase] at hmidway
    obtain ⟨hserves, hchange, write', hwrite', howner, hmappings, hdurable⟩ := hmidway
    by_cases hw : w' = w
    · subst hw
      rw [hget] at hwrite'
      rw [← Option.some.inj hwrite', hpending] at hdurable
      rw [← Option.some.inj hwrite'] at howner hmappings
      exact ⟨hserves, hchange, _, Slots.get_set_self hget, howner, hmappings, hdurable⟩
    · have hother' := (Slots.get_set_ne (s := s.writes)
        (c := some { write with outcome := .failed reason }) hw).trans hwrite'
      exact ⟨hserves, hchange, write', hother', howner, hmappings, hdurable⟩
  | _ =>
    rw [hphase] at hmidway
    exact hmidway

/-- A write that is committed is that of the holder of the lock, as its call has not been dropped. -/
theorem Inv.committed {write : Write} (hi : Inv config s) (hget : s.writes.get w = some write)
    (hpending : write.outcome = .pending)
    (hkept : ∀ operation ∈ s.operations.get write.operation, operation.phase ≠ .dropped) :
    Inv config { s with
      durable := write.mappings
      writes := s.writes.set w (some { write with outcome := .committed }) } := by
  obtain ⟨operation, hoperation, hwait⟩ := hi.pending w write hget hpending
  obtain ⟨c, hphase, hnext⟩ := hwait.resolve_left (hkept operation hoperation)
  have hholds : operation.phase.Holds = true := by rw [hphase]; rfl
  obtain ⟨hlock, hmidway⟩ := hi.midway hoperation hholds
  rw [hphase] at hmidway
  obtain ⟨hserves, hchange, -⟩ := hmidway
  refine ⟨hi.valid, hi.holder, fun hnone => ?_, ?_, hi.pending.written fun h => (by cases h)⟩
  · have hnone : s.lock = none := hnone
    rw [hlock] at hnone
    cases hnone
  · intro j hj
    have hj : s.lock = some j := hj
    rw [hlock] at hj
    rw [← Option.some.inj hj]
    refine ⟨operation, hoperation, ?_⟩
    rw [hphase]
    refine ⟨hserves, hchange, _, Slots.get_set_self hget, rfl, hnext, ?_⟩
    rw [if_pos rfl]
    exact hnext

theorem not_pending_of_outcome {outcome : Outcome} (hphase : operation.phase = .persisting c w)
    (houtcome : (s.writes.get w).map Write.outcome = some outcome) (hdone : outcome ≠ .pending) :
    ∀ c w write, operation.phase = .persisting c w → s.writes.get w = some write →
      write.outcome ≠ .pending := by
  intro c' w' write hphase' hwrite hpending
  rw [hphase] at hphase'
  obtain ⟨-, hw⟩ := Phase.persisting.inj hphase'
  rw [hw, hwrite] at houtcome
  have houtcome : write.outcome = outcome := Option.some.inj houtcome
  exact hdone (houtcome.symm.trans hpending)

theorem Inv.resume (hi : Inv config s) (hget : s.operations.get i = some operation)
    (hphase : operation.phase = .persisting c w)
    (houtcome : (s.writes.get w).map Write.outcome = some .committed) :
    Inv config (s.resume i operation c) := by
  have hholds : operation.phase.Holds = true := by rw [hphase]; rfl
  obtain ⟨hlock, hmidway⟩ := hi.midway hget hholds
  rw [hphase] at hmidway
  obtain ⟨hserves, hchange, write, hwrite, -, -, hdurable⟩ := hmidway
  have hdone := not_pending_of_outcome hphase houtcome fun h => by cases h
  rw [hwrite] at houtcome
  rw [if_pos (Option.some.inj houtcome)] at hdurable
  have hdropped : operation.phase ≠ .dropped := by rw [hphase]; exact fun h => by cases h
  unfold Sys.resume
  cases hrequest : operation.request with
  | upsert mapping =>
    rw [hrequest] at hchange
    refine hi.advance hget (.inl hlock) rfl hlock hi.valid ?_ ?_
    · rw [hrequest]
      refine ⟨hdurable, hserves.push, hchange, s.listeners.next, rfl, ?_⟩
      show (s.listeners.push { mapping }).get s.listeners.next = _
      rw [Slots.get_push, if_pos rfl]
    · refine hi.pending.setPhase hget hdropped ?_ rfl rfl
      intro c w write hp hw hpending
      exact absurd hpending (hdone c w write hp hw)
  | delete homeId serviceId protocol =>
    rw [hrequest] at hchange
    refine hi.advance hget (.inl hlock) rfl hlock hi.valid ?_ ?_
    · rw [hrequest]
      exact ⟨hdurable, hserves, hchange, rfl⟩
    · refine hi.pending.setPhase hget hdropped ?_ rfl rfl
      intro c w write hp hw hpending
      exact absurd hpending (hdone c w write hp hw)

theorem Inv.notPersisted {reason : String} (hi : Inv config s)
    (hget : s.operations.get i = some operation) (hphase : operation.phase = .persisting c w)
    (houtcome : (s.writes.get w).map Write.outcome = some (.failed reason)) :
    Inv config (s.finish i operation (.error (.persistFailed reason))) := by
  have hholds : operation.phase.Holds = true := by rw [hphase]; rfl
  obtain ⟨hlock, hmidway⟩ := hi.midway hget hholds
  rw [hphase] at hmidway
  obtain ⟨hserves, hchange, write, hwrite, -, -, hdurable⟩ := hmidway
  have hdone := not_pending_of_outcome hphase houtcome fun h => by cases h
  rw [hwrite] at houtcome
  have houtcome : write.outcome = .failed reason := Option.some.inj houtcome
  rw [if_neg (by rw [houtcome]; exact fun h => by cases h)] at hdurable
  exact hi.finish hget hlock ⟨hdurable, hserves⟩ (by rw [hphase]; exact fun h => by cases h) hdone

theorem Inv.store {task : Option ℕ} (hplain : config.Plain) (hi : Inv config s)
    (hget : s.operations.get i = some operation) (hphase : operation.phase = .storing c task) :
    Inv config (s.store i operation c task) := by
  have hholds : operation.phase.Holds = true := by rw [hphase]; rfl
  obtain ⟨hlock, hmidway⟩ := hi.midway hget hholds
  rw [hphase] at hmidway
  obtain ⟨hdurable, hserves, hchange, htask⟩ := hmidway
  obtain ⟨hvalid, hnext⟩ := change_ok hplain hi.valid hchange
  refine hi.advance hget (.inl hlock) rfl hlock hi.valid ?_ ?_
  · refine ⟨hdurable, ?_, hvalid⟩
    unfold Sys.store
    cases hrequest : operation.request with
    | upsert mapping =>
      rw [hrequest] at htask hnext
      obtain ⟨t, rfl, hlistener⟩ := htask
      apply hserves.insert hlistener
      intro m
      rw [hnext]
      constructor
      · rintro (heq | hm)
        · exact .inl (Request.upsert.inj heq).symm
        · exact .inr hm
      · rintro (rfl | hm)
        · exact .inl rfl
        · exact .inr hm
    | delete homeId serviceId protocol =>
      rw [hrequest] at htask hnext
      have htask : task = none := htask
      subst htask
      apply hserves.erase
      intro m
      rw [hnext]
      exact ⟨fun h => h.resolve_left fun heq => (by cases heq), .inr⟩
  · refine hi.pending.setPhase hget (by rw [hphase]; exact fun h => by cases h) ?_ rfl rfl
    intro c w write hpersisting
    rw [hphase] at hpersisting
    cases hpersisting

theorem Serves.tell {next : List Mapping} (h : Serves s.tasks s.listeners next (some t)) :
    Serves (s.tell (some t)).tasks (s.tell (some t)).listeners next (some t) := by
  unfold Sys.tell
  dsimp only
  split
  · exact h
  · exact h.set

theorem tell_keeps (task : Option ℕ) : (s.tell task).operations = s.operations ∧
    (s.tell task).lock = s.lock ∧ (s.tell task).writes = s.writes ∧
    (s.tell task).durable = s.durable ∧ (s.tell task).mappings = s.mappings := by
  unfold Sys.tell
  cases task with
  | none => exact ⟨rfl, rfl, rfl, rfl, rfl⟩
  | some t =>
    dsimp only
    split
    · exact ⟨rfl, rfl, rfl, rfl, rfl⟩
    · exact ⟨rfl, rfl, rfl, rfl, rfl⟩

theorem Inv.publish {old : Option ℕ} (hi : Inv config s)
    (hget : s.operations.get i = some operation) (hphase : operation.phase = .publishing c old) :
    Inv config (s.publish i operation c old) := by
  have hholds : operation.phase.Holds = true := by rw [hphase]; rfl
  obtain ⟨hlock, hmidway⟩ := hi.midway hget hholds
  rw [hphase] at hmidway
  obtain ⟨hdurable, hserves, hvalid⟩ := hmidway
  have hdropped : operation.phase ≠ .dropped := by rw [hphase]; exact fun h => by cases h
  have hwrite : ∀ phase, ∀ c w write, operation.phase = .persisting c w →
      s.writes.get w = some write → write.outcome = .pending → phase = Phase.dropped := by
    intro phase c w write hpersisting
    rw [hphase] at hpersisting
    cases hpersisting
  cases old with
  | none =>
    refine hi.release hlock rfl rfl rfl hvalid ⟨hdurable, hserves⟩ ?_
    exact hi.pending.setPhase hget hdropped (hwrite _) rfl rfl
  | some t =>
    obtain ⟨hoperations, htold, hwrites, hsame, hmappings⟩ :=
      @tell_keeps { s with mappings := c.next } (some t)
    have hset : (s.publish i operation c (some t)).operations =
        s.operations.set i (some { operation with phase := .stopping c.answer t }) := by
      show (Sys.tell _ (some t)).operations.set i _ = _
      rw [hoperations]
    refine hi.advance hget (.inl hlock) hset (htold.trans hlock) ?_ ?_ ?_
    · show validateMappingSet config (Sys.tell _ (some t)).mappings = _
      rw [hmappings]
      exact hvalid
    · refine ⟨?_, ?_⟩
      · show (Sys.tell _ (some t)).durable = (Sys.tell _ (some t)).mappings
        rw [hsame, hmappings]
        exact hdurable
      · show Serves (Sys.tell _ (some t)).tasks (Sys.tell _ (some t)).listeners
          (Sys.tell _ (some t)).mappings (some t)
        rw [hmappings]
        exact Serves.tell hserves
    · exact hi.pending.setPhase hget hdropped (hwrite _) hset hwrites

theorem Inv.stopped {answer : Mapping} {old : ℕ} (hi : Inv config s)
    (hget : s.operations.get i = some operation) (hphase : operation.phase = .stopping answer old)
    (hgone : s.listeners.get old = none) : Inv config (s.finish i operation (.ok answer)) := by
  have hholds : operation.phase.Holds = true := by rw [hphase]; rfl
  obtain ⟨hlock, hmidway⟩ := hi.midway hget hholds
  rw [hphase] at hmidway
  refine hi.finish hget hlock ⟨hmidway.1, hmidway.2.gone hgone⟩
    (by rw [hphase]; exact fun h => by cases h) ?_
  intro c w write hpersisting
  rw [hphase] at hpersisting
  cases hpersisting

/-- A task that ends is the one that a call has told. -/
theorem Inv.listenerEnds (hi : Inv config s) (hget : s.listeners.get t = some listener)
    (htold : listener.told = true) :
    Inv config { s with listeners := s.listeners.set t none } := by
  have hnone : ¬ Serves s.tasks s.listeners s.mappings none := by
    intro hserves
    have hextra := hserves.told hget htold
    cases hextra
  refine ⟨hi.valid, hi.holder, fun hfree => absurd (hi.free hfree).2 hnone, ?_, hi.pending⟩
  intro j hj
  obtain ⟨other, hother, hmidway⟩ := hi.held j hj
  refine ⟨other, hother, ?_⟩
  cases hphase : other.phase with
  | queued => rw [hphase] at hmidway; exact hmidway.elim
  | returned result => rw [hphase] at hmidway; exact hmidway.elim
  | dropped => rw [hphase] at hmidway; exact hmidway.elim
  | locked => rw [hphase] at hmidway; exact absurd hmidway.2 hnone
  | binding c => rw [hphase] at hmidway; exact absurd hmidway.2.1 hnone
  | persisting c w => rw [hphase] at hmidway; exact absurd hmidway.1 hnone
  | storing c task =>
    rw [hphase] at hmidway
    obtain ⟨-, hserves, -, htask⟩ := hmidway
    have hextra := hserves.told hget htold
    rw [hextra] at htask
    cases hrequest : other.request with
    | upsert mapping =>
      rw [hrequest] at htask
      obtain ⟨t', heq, hnew⟩ := htask
      rw [← Option.some.inj heq, hget] at hnew
      rw [Option.some.inj hnew] at htold
      cases htold
    | delete homeId serviceId protocol =>
      rw [hrequest] at htask
      cases htask
  | publishing c old =>
    rw [hphase] at hmidway
    obtain ⟨hdurable, hserves, hvalid⟩ := hmidway
    have hextra := hserves.told hget htold
    rw [hextra] at hserves
    exact ⟨hdurable, hextra ▸ hserves.set, hvalid⟩
  | stopping answer old =>
    rw [hphase] at hmidway
    obtain ⟨hdurable, hserves⟩ := hmidway
    have hextra := hserves.told hget htold
    rw [hextra] at hserves
    exact ⟨hdurable, hextra ▸ hserves.set⟩

/-- A call that waits for the lock is dropped. -/
theorem Inv.leave (hi : Inv config s) (hget : s.operations.get i = some operation)
    (hphase : operation.phase = .queued) : Inv config (s.setPhase i operation .dropped) := by
  refine hi.passive ?_ ?_ rfl rfl rfl rfl rfl rfl ?_
  · intro j other hother hholds
    rcases Slots.get_set_cases hother with ⟨-, hnew, -⟩ | ⟨-, hold⟩
    · rw [← Option.some.inj hnew] at hholds
      cases hholds
    · exact hold
  · intro j other hother hholds
    have hne : j ≠ i := by
      rintro rfl
      rw [hget] at hother
      rw [← Option.some.inj hother, hphase] at hholds
      cases hholds
    exact (Slots.get_set_ne hne).trans hother
  · refine hi.pending.setPhase hget (by rw [hphase]; exact fun h => by cases h) ?_ rfl rfl
    intro c w write _ _ _
    rfl

/-- A call that has the lock is dropped before its write is committed. -/
theorem Inv.abandon (hi : Inv config s) (hget : s.operations.get i = some operation)
    (hholds : operation.phase.Holds = true)
    (hfree : s.durable = s.mappings ∧ Serves s.tasks s.listeners s.mappings none) :
    Inv config { s.setPhase i operation .dropped with
      lock := if s.lock = some i then none else s.lock } := by
  have hlock := (hi.midway hget hholds).1
  refine hi.release hlock rfl rfl (if_pos hlock) hi.valid hfree ?_
  refine hi.pending.setPhase hget ?_ (fun _ _ _ _ _ _ => rfl) rfl rfl
  intro hdropped
  rw [hdropped] at hholds
  cases hholds

theorem Inv.drop (hi : Inv config s) (hget : s.operations.get i = some operation)
    (hkept : ¬ s.Committed operation) (hs : s.dropCall i operation = some s') : Inv config s' := by
  unfold Sys.dropCall at hs
  cases hphase : operation.phase with
  | returned result =>
    rw [hphase] at hs
    cases hs
  | dropped =>
    rw [hphase] at hs
    cases hs
  | storing c task =>
    unfold Committed at hkept
    rw [hphase] at hkept
    exact absurd trivial hkept
  | publishing c old =>
    unfold Committed at hkept
    rw [hphase] at hkept
    exact absurd trivial hkept
  | stopping answer old =>
    unfold Committed at hkept
    rw [hphase] at hkept
    exact absurd trivial hkept
  | queued =>
    rw [hphase] at hs
    rw [← Option.some.inj hs]
    have hlock : s.lock ≠ some i := by
      intro hlock
      obtain ⟨other, hother, hmidway⟩ := hi.held i hlock
      rw [hget] at hother
      rw [← Option.some.inj hother, hphase] at hmidway
      exact hmidway
    dsimp only
    rw [if_neg hlock]
    exact hi.leave hget hphase
  | locked =>
    rw [hphase] at hs
    rw [← Option.some.inj hs]
    have hholds : operation.phase.Holds = true := by rw [hphase]; rfl
    have hmidway := (hi.midway hget hholds).2
    rw [hphase] at hmidway
    exact hi.abandon hget hholds hmidway
  | binding c =>
    rw [hphase] at hs
    rw [← Option.some.inj hs]
    have hholds : operation.phase.Holds = true := by rw [hphase]; rfl
    have hmidway := (hi.midway hget hholds).2
    rw [hphase] at hmidway
    exact hi.abandon hget hholds ⟨hmidway.1, hmidway.2.1⟩
  | persisting c w =>
    rw [hphase] at hs
    rw [← Option.some.inj hs]
    have hholds : operation.phase.Holds = true := by rw [hphase]; rfl
    have hmidway := (hi.midway hget hholds).2
    rw [hphase] at hmidway
    obtain ⟨hserves, -, write, hwrite, -, -, hdurable⟩ := hmidway
    have hopen : write.outcome ≠ .committed := by
      intro hcommitted
      unfold Committed at hkept
      rw [hphase] at hkept
      exact hkept ⟨write, hwrite, hcommitted⟩
    rw [if_neg hopen] at hdurable
    exact hi.abandon hget hholds ⟨hdurable, hserves⟩

theorem Inv.act {a : Action} (hplain : config.Plain) (hi : Inv config s) (hkept : s.Kept a)
    (hs : s.act config a = some s') : Inv config s' := by
  cases a with
  | call request => exact Option.some.inj hs ▸ hi.call
  | lock i =>
    unfold Sys.act at hs
    dsimp only at hs
    split at hs
    · next operation hget =>
      split_ifs at hs with hguard
      exact Option.some.inj hs ▸ hi.lock hget hguard.1 hguard.2
    · cases hs
  | read i =>
    unfold Sys.act at hs
    dsimp only at hs
    split at hs
    · next operation hget =>
      split_ifs at hs with hphase
      exact Option.some.inj hs ▸ hi.read hget hphase
    · cases hs
  | bound i failure =>
    unfold Sys.act at hs
    dsimp only at hs
    split at hs
    · next operation hget =>
      split at hs
      · next c hphase =>
        have hbound := @Inv.bound config s i operation c failure hi hget hphase
        cases failure with
        | none => exact Option.some.inj hs ▸ hbound
        | some reason => exact Option.some.inj hs ▸ hbound
      · cases hs
    · cases hs
  | written w failure =>
    unfold Sys.act at hs
    dsimp only at hs
    split at hs
    · next write hget =>
      split_ifs at hs with hpending
      cases failure with
      | none => exact Option.some.inj hs ▸ hi.committed hget hpending (hkept write hget)
      | some reason => exact Option.some.inj hs ▸ hi.failed hget hpending
    · cases hs
  | resume i =>
    unfold Sys.act at hs
    dsimp only at hs
    split at hs
    · next operation hget =>
      split at hs
      · next c w hphase =>
        split at hs
        · next houtcome => exact Option.some.inj hs ▸ hi.resume hget hphase houtcome
        · next houtcome => exact Option.some.inj hs ▸ hi.notPersisted hget hphase houtcome
        · cases hs
      · cases hs
    · cases hs
  | store i =>
    unfold Sys.act at hs
    dsimp only at hs
    split at hs
    · next operation hget =>
      split at hs
      · next c task hphase => exact Option.some.inj hs ▸ hi.store hplain hget hphase
      · cases hs
    · cases hs
  | publish i =>
    unfold Sys.act at hs
    dsimp only at hs
    split at hs
    · next operation hget =>
      split at hs
      · next c old hphase => exact Option.some.inj hs ▸ hi.publish hget hphase
      · cases hs
    · cases hs
  | stopped i =>
    unfold Sys.act at hs
    dsimp only at hs
    split at hs
    · next operation hget =>
      split at hs
      · next answer old hphase =>
        split_ifs at hs with hgone
        exact Option.some.inj hs ▸ hi.stopped hget hphase hgone
      · cases hs
    · cases hs
  | listenerEnds t =>
    unfold Sys.act at hs
    dsimp only at hs
    split at hs
    · next listener hget =>
      split_ifs at hs with htold
      exact Option.some.inj hs ▸ hi.listenerEnds hget htold
    · cases hs
  | drop i =>
    obtain ⟨operation, hget, hdrop⟩ := Option.bind_eq_some_iff.mp hs
    exact hi.drop hget (hkept operation hget) hdrop

end Sys
end FlowSplice.Mappings
