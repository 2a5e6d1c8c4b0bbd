import FlowSplice.Mappings.Consistency

/-! Only a call whose write is committed changes anything. -/
namespace FlowSplice.Mappings
namespace Sys

/-- The write of the call is committed: it has returned its answer, or goes on to it. -/
def Effective (s : Sys) (operation : Operation) : Prop :=
  s.Committed operation ∨ ∃ answer, operation.phase = .returned (.ok answer)

/-- What is committed stays so, and calls that have come so far go on. -/
def Keeps (s s' : Sys) : Prop :=
  ∀ i operation, s.operations.get i = some operation → s.Effective operation →
    ∃ operation', s'.operations.get i = some operation' ∧ s'.Effective operation'

/-- The mappings, the table and the listener tasks are as they were. -/
def Same (s s' : Sys) : Prop :=
  s'.durable = s.durable ∧ s'.mappings = s.mappings ∧ s'.tasks.entries = s.tasks.entries ∧
    s'.listeners = s.listeners

/-- A step that changes something is that of a call whose write is committed. -/
structure Accountable (s : Sys) (actor : Option ℕ) (s' : Sys) : Prop where
  touched : s'.touched = s.touched
  keeps : s.Keeps s'
  changes : s.Same s' ∨ ∀ i ∈ actor, ∃ operation, s'.operations.get i = some operation ∧
    s'.Effective operation

variable {config : Config} {s s' : Sys} {i w t : ℕ} {operation : Operation} {phase : Phase}
  {c : Change} {actor : Option ℕ} {listener : Listener}

theorem Effective.mono (h : s.Effective operation)
    (hwrites : ∀ w write, s.writes.get w = some write → write.outcome = .committed →
      s'.writes.get w = some write) : s'.Effective operation := by
  rcases h with hcommitted | hreturned
  · left
    unfold Committed at hcommitted ⊢
    cases hphase : operation.phase with
    | persisting c w =>
      rw [hphase] at hcommitted
      obtain ⟨write, hwrite, houtcome⟩ := hcommitted
      exact ⟨write, hwrites w write hwrite houtcome, houtcome⟩
    | _ =>
      rw [hphase] at hcommitted
      exact hcommitted
  · exact .inr hreturned

theorem keeps_of_set (hget : s.operations.get i = some operation)
    (hoperations : s'.operations = s.operations.set i (some { operation with phase }))
    (heffective : s.Effective operation → s'.Effective { operation with phase })
    (hwrites : ∀ w write, s.writes.get w = some write → write.outcome = .committed →
      s'.writes.get w = some write) : s.Keeps s' := by
  intro j other hother hcommitted
  by_cases hj : j = i
  · subst hj
    rw [hget] at hother
    rw [← Option.some.inj hother] at hcommitted
    refine ⟨_, ?_, heffective hcommitted⟩
    rw [hoperations, Slots.get_set_self hget]
  · refine ⟨other, ?_, hcommitted.mono hwrites⟩
    rw [hoperations, Slots.get_set_ne hj]
    exact hother

/-- A call whose write is not committed moves on and changes nothing. -/
theorem accountable_of_set (hget : s.operations.get i = some operation)
    (hopen : ¬ s.Effective operation)
    (hoperations : s'.operations = s.operations.set i (some { operation with phase }))
    (hwrites : ∀ w write, s.writes.get w = some write → write.outcome = .committed →
      s'.writes.get w = some write) (hsame : s.Same s') (htouched : s'.touched = s.touched) :
    s.Accountable actor s' :=
  ⟨htouched, keeps_of_set hget hoperations (fun h => absurd h hopen) hwrites, .inl hsame⟩

/-- A call whose write is committed moves on. -/
theorem accountable_of_effective (hget : s.operations.get i = some operation)
    (hoperations : s'.operations = s.operations.set i (some { operation with phase }))
    (heffective : s'.Effective { operation with phase }) (hwrites : s'.writes = s.writes)
    (htouched : s'.touched = s.touched) : s.Accountable (some i) s' := by
  refine ⟨htouched, ?_, .inr ?_⟩
  · apply keeps_of_set hget hoperations (fun _ => heffective)
    intro w write hwrite _
    rw [hwrites]
    exact hwrite
  · intro j hj
    rw [← Option.some.inj hj]
    refine ⟨_, ?_, heffective⟩
    rw [hoperations, Slots.get_set_self hget]

theorem not_effective_of_phase (h : operation.phase = .queued ∨ operation.phase = .locked ∨
    ∃ c, operation.phase = .binding c) : ¬ s.Effective operation := by
  intro heffective
  rcases heffective with hcommitted | ⟨answer, hreturned⟩
  · unfold Committed at hcommitted
    rcases h with h | h | ⟨c, h⟩ <;> rw [h] at hcommitted <;> exact hcommitted
  · rcases h with h | h | ⟨c, h⟩ <;> rw [h] at hreturned <;> cases hreturned

theorem accountable_persist (hget : s.operations.get i = some operation)
    (hopen : ¬ s.Effective operation) : s.Accountable actor (s.persist i operation c) :=
  accountable_of_set hget hopen rfl (fun _ _ hwrite _ => Slots.get_push_of_some hwrite)
    ⟨rfl, rfl, rfl, rfl⟩ rfl

theorem accountable_finish {result : Except MappingError Mapping}
    (hget : s.operations.get i = some operation) (hopen : ¬ s.Effective operation) :
    s.Accountable actor (s.finish i operation result) :=
  accountable_of_set hget hopen rfl (fun _ _ hwrite _ => hwrite) ⟨rfl, rfl, rfl, rfl⟩ rfl

theorem accountable_read (hget : s.operations.get i = some operation)
    (hphase : operation.phase = .locked) :
    s.Accountable actor (s.read config i operation) := by
  have hopen : ¬ s.Effective operation := not_effective_of_phase (.inr (.inl hphase))
  unfold Sys.read
  cases change config s.mappings operation.request with
  | error error => exact accountable_finish hget hopen
  | ok found =>
    cases found with
    | none =>
      cases operation.request with
      | upsert mapping => exact accountable_finish hget hopen
      | delete homeId serviceId protocol =>
        exact ⟨rfl, fun j other hother h => ⟨other, hother, h⟩, .inl ⟨rfl, rfl, rfl, rfl⟩⟩
    | some c =>
      cases operation.request with
      | upsert mapping =>
        exact accountable_of_set hget hopen rfl (fun _ _ hwrite _ => hwrite)
          ⟨rfl, rfl, rfl, rfl⟩ rfl
      | delete homeId serviceId protocol => exact accountable_persist hget hopen

/-- A commit is that of a call that waits for it. -/
theorem accountable_committed {write : Write} (hi : Inv config s)
    (hget : s.writes.get w = some write) (hpending : write.outcome = .pending)
    (hkept : ∀ operation ∈ s.operations.get write.operation, operation.phase ≠ .dropped) :
    s.Accountable (some write.operation) { s with
      durable := write.mappings
      writes := s.writes.set w (some { write with outcome := .committed }) } := by
  obtain ⟨operation, hoperation, hwait⟩ := hi.pending w write hget hpending
  obtain ⟨c, hphase, -⟩ := hwait.resolve_left (hkept operation hoperation)
  refine ⟨rfl, ?_, .inr ?_⟩
  · intro j other hother heffective
    refine ⟨other, hother, heffective.mono ?_⟩
    intro w' write' hwrite' hcommitted
    have hne : w' ≠ w := by
      rintro rfl
      rw [hget] at hwrite'
      rw [← Option.some.inj hwrite', hpending] at hcommitted
      cases hcommitted
    exact (Slots.get_set_ne hne).trans hwrite'
  · intro j hj
    rw [← Option.some.inj hj]
    refine ⟨operation, hoperation, .inl ?_⟩
    unfold Committed
    rw [hphase]
    exact ⟨_, Slots.get_set_self hget, rfl⟩

theorem accountable_failed {write : Write} {reason : String} (hget : s.writes.get w = some write)
    (hpending : write.outcome = .pending) :
    s.Accountable actor { s with
      writes := s.writes.set w (some { write with outcome := .failed reason }) } := by
  refine ⟨rfl, ?_, .inl ⟨rfl, rfl, rfl, rfl⟩⟩
  intro j other hother heffective
  refine ⟨other, hother, heffective.mono ?_⟩
  intro w' write' hwrite' hcommitted
  have hne : w' ≠ w := by
    rintro rfl
    rw [hget] at hwrite'
    rw [← Option.some.inj hwrite', hpending] at hcommitted
    cases hcommitted
  exact (Slots.get_set_ne hne).trans hwrite'

theorem accountable_resume (hget : s.operations.get i = some operation) :
    s.Accountable (some i) (s.resume i operation c) := by
  unfold Sys.resume
  cases operation.request with
  | upsert mapping => exact accountable_of_effective hget rfl (.inl trivial) rfl rfl
  | delete homeId serviceId protocol =>
    exact accountable_of_effective hget rfl (.inl trivial) rfl rfl

theorem accountable_publish {old : Option ℕ} (hget : s.operations.get i = some operation) :
    s.Accountable (some i) (s.publish i operation c old) := by
  cases old with
  | none => exact accountable_of_effective hget rfl (.inr ⟨c.answer, rfl⟩) rfl rfl
  | some t =>
    obtain ⟨hoperations, -, hwrites, -, -⟩ := @tell_keeps { s with mappings := c.next } (some t)
    have hset : (s.publish i operation c (some t)).operations =
        s.operations.set i (some { operation with phase := .stopping c.answer t }) := by
      show (Sys.tell _ (some t)).operations.set i _ = _
      rw [hoperations]
    refine accountable_of_effective hget hset (.inl trivial) hwrites ?_
    show (Sys.tell _ (some t)).touched = _
    unfold Sys.tell
    dsimp only
    split <;> rfl

theorem not_effective_of_failed {reason : String} (hphase : operation.phase = .persisting c w)
    (houtcome : (s.writes.get w).map Write.outcome = some (.failed reason)) :
    ¬ s.Effective operation := by
  intro heffective
  rcases heffective with hcommitted | ⟨answer, hreturned⟩
  · unfold Committed at hcommitted
    rw [hphase] at hcommitted
    obtain ⟨write, hwrite, hdone⟩ := hcommitted
    rw [Option.mem_def.mp hwrite] at houtcome
    have houtcome : write.outcome = .failed reason := Option.some.inj houtcome
    rw [hdone] at houtcome
    cases houtcome
  · rw [hphase] at hreturned
    cases hreturned

theorem accountable_drop (hget : s.operations.get i = some operation)
    (hkept : ¬ s.Committed operation) (hs : s.dropCall i operation = some s') :
    s.Accountable actor s' := by
  unfold Sys.dropCall at hs
  cases hphase : operation.phase with
  | returned result =>
    rw [hphase] at hs
    cases hs
  | dropped =>
    rw [hphase] at hs
    cases hs
  | storing c task =>
    unfold Committed at hkept
    rw [hphase] at hkept
    exact absurd trivial hkept
  | publishing c old =>
    unfold Committed at hkept
    rw [hphase] at hkept
    exact absurd trivial hkept
  | stopping answer old =>
    unfold Committed at hkept
    rw [hphase] at hkept
    exact absurd trivial hkept
  | _ =>
    have hopen : ¬ s.Effective operation := by
      intro heffective
      rcases heffective with hcommitted | ⟨answer, hreturned⟩
      · exact hkept hcommitted
      · rw [hphase] at hreturned
        cases hreturned
    rw [hphase] at hs
    rw [← Option.some.inj hs]
    exact accountable_of_set hget hopen rfl (fun _ _ hwrite _ => hwrite) ⟨rfl, rfl, rfl, rfl⟩ rfl

theorem accountable_act {a : Action} (hi : Inv config s) (hkept : s.Kept a)
    (hs : s.act config a = some s') : s.Accountable (s.actor a) s' := by
  cases a with
  | call request =>
    rw [← Option.some.inj hs]
    refine ⟨rfl, ?_, .inl ⟨rfl, rfl, rfl, rfl⟩⟩
    intro j other hother heffective
    exact ⟨other, Slots.get_push_of_some hother, heffective⟩
  | lock i =>
    unfold Sys.act at hs
    dsimp only at hs
    split at hs
    · next operation hget =>
      split_ifs at hs with hguard
      rw [← Option.some.inj hs]
      exact accountable_of_set hget (not_effective_of_phase (.inl hguard.1)) rfl
        (fun _ _ hwrite _ => hwrite) ⟨rfl, rfl, rfl, rfl⟩ rfl
    · cases hs
  | read i =>
    unfold Sys.act at hs
    dsimp only at hs
    split at hs
    · next operation hget =>
      split_ifs at hs with hphase
      exact Option.some.inj hs ▸ accountable_read hget hphase
    · cases hs
  | bound i failure =>
    unfold Sys.act at hs
    dsimp only at hs
    split at hs
    · next operation hget =>
      split at hs
      · next c hphase =>
        have hopen : ¬ s.Effective operation :=
          not_effective_of_phase (.inr (.inr ⟨c, hphase⟩))
        cases failure with
        | none => exact Option.some.inj hs ▸ accountable_persist hget hopen
        | some reason => exact Option.some.inj hs ▸ accountable_finish hget hopen
      · cases hs
    · cases hs
  | written w failure =>
    unfold Sys.act at hs
    dsimp only at hs
    split at hs
    · next write hget =>
      have hactor : s.actor (.written w failure) = some write.operation := by
        show (s.writes.get w).map (·.operation) = _
        rw [hget]
        rfl
      rw [hactor]
      split_ifs at hs with hpending
      cases failure with
      | none =>
        exact Option.some.inj hs ▸ accountable_committed hi hget hpending (hkept write hget)
      | some reason => exact Option.some.inj hs ▸ accountable_failed hget hpending
    · cases hs
  | resume i =>
    unfold Sys.act at hs
    dsimp only at hs
    split at hs
    · next operation hget =>
      split at hs
      · next c w hphase =>
        split at hs
        · exact Option.some.inj hs ▸ accountable_resume hget
        · next houtcome =>
          have hopen := not_effective_of_failed hphase houtcome
          exact Option.some.inj hs ▸ accountable_finish hget hopen
        · cases hs
      · cases hs
    · cases hs
  | store i =>
    unfold Sys.act at hs
    dsimp only at hs
    split at hs
    · next operation hget =>
      split at hs
      · rw [← Option.some.inj hs]
        exact accountable_of_effective hget rfl (.inl trivial) rfl rfl
      · cases hs
    · cases hs
  | publish i =>
    unfold Sys.act at hs
    dsimp only at hs
    split at hs
    · next operation hget =>
      split at hs
      · exact Option.some.inj hs ▸ accountable_publish hget
      · cases hs
    · cases hs
  | stopped i =>
    unfold Sys.act at hs
    dsimp only at hs
    split at hs
    · next operation hget =>
      split at hs
      · next answer old hphase =>
        split_ifs at hs with hgone
        rw [← Option.some.inj hs]
        exact accountable_of_effective hget rfl (.inr ⟨answer, rfl⟩) rfl rfl
      · cases hs
    · cases hs
  | listenerEnds t =>
    unfold Sys.act at hs
    dsimp only at hs
    split at hs
    · next listener hget =>
      split_ifs at hs with htold
      rw [← Option.some.inj hs]
      exact ⟨rfl, fun j other hother h => ⟨other, hother, h⟩, .inr fun i hi => by cases hi⟩
    · cases hs
  | drop i =>
    obtain ⟨operation, hget, hdrop⟩ := Option.bind_eq_some_iff.mp hs
    exact accountable_drop hget (hkept operation hget) hdrop

/-- Who is noted has come so far that its write is committed. -/
def Noted (s : Sys) : Prop :=
  ∀ i ∈ s.touched, ∃ operation, s.operations.get i = some operation ∧ s.Effective operation

theorem Accountable.noted (h : s.Accountable actor s') (hnoted : s.Noted) :
    (s.note s' actor).Noted := by
  have hkept : ∀ i ∈ s'.touched, ∃ operation, s'.operations.get i = some operation ∧
      s'.Effective operation := by
    intro i hi
    rw [h.touched] at hi
    obtain ⟨operation, hget, heffective⟩ := hnoted i hi
    exact h.keeps i operation hget heffective
  unfold Sys.note
  split_ifs with hsame
  · exact hkept
  · intro i hi
    rcases List.mem_append.mp hi with hactor | hold
    · exact (h.changes.resolve_left hsame) i (by simpa using hactor)
    · exact hkept i hold

theorem Inv.note (hi : Inv config s') : Inv config (s.note s' actor) := by
  unfold Sys.note
  split_ifs
  · exact hi
  · refine ⟨hi.valid, hi.holder, hi.free, ?_, hi.pending⟩
    intro j hj
    obtain ⟨other, hother, hmidway⟩ := hi.held j hj
    refine ⟨other, hother, ?_⟩
    cases hphase : other.phase <;> rw [hphase] at hmidway <;> exact hmidway

theorem get_start {mappings : List Mapping} :
    (start mappings).listeners.get t = mappings[t]?.map fun mapping => { mapping } := by
  show ((({} : Slots Listener).pushAll (mappings.map fun mapping => { mapping })).get t) = _
  unfold Slots.get Slots.pushAll
  simp only [List.nil_append, List.getElem?_map]
  cases mappings[t]? <;> rfl

theorem serves_start {mappings : List Mapping} (hkeys : (mappings.map mappingKey).Nodup) :
    Serves (start mappings).tasks (start mappings).listeners mappings none := by
  have hfst : (mappings.zipIdx.map fun m => (mappingKey m.1, m.2)).map Prod.fst =
      mappings.map mappingKey := by
    rw [List.map_map]
    show mappings.zipIdx.map (mappingKey ∘ Prod.fst) = _
    rw [← List.map_map, List.zipIdx_map_fst]
  have hlookup : ∀ m t, mappings[t]? = some m →
      (start mappings).tasks.lookup (mappingKey m) = some t := by
    intro m t hm
    apply Table.lookup_insertAll_of_mem
    · rw [hfst]
      exact hkeys
    · apply List.mem_map.mpr
      exact ⟨(m, t), List.mem_zipIdx_iff_getElem?.mpr hm, rfl⟩
  refine ⟨?_, ?_, ?_⟩
  · intro m hm
    obtain ⟨t, ht⟩ := List.getElem?_of_mem hm
    refine ⟨t, hlookup m t ht, ?_⟩
    rw [get_start, ht]
    rfl
  · intro key t hget
    refine ⟨?_, fun h => by cases h⟩
    by_contra hnone
    have hnotMem : key ∉ (mappings.zipIdx.map fun m => (mappingKey m.1, m.2)).map Prod.fst := by
      rw [hfst]
      intro hmem
      obtain ⟨m, hm, hkey⟩ := List.mem_map.mp hmem
      exact hnone ⟨m, hm, hkey⟩
    have hempty := Table.lookup_insertAll_of_notMem (t := (∅ : Table String ℕ)) hnotMem
    have hget : (Table.insertAll ∅ (mappings.zipIdx.map fun m => (mappingKey m.1, m.2))).lookup key =
      some t := hget
    rw [hempty] at hget
    cases hget
  · intro t l hget
    rw [get_start] at hget
    obtain ⟨m, hm, -⟩ := Option.map_eq_some_iff.mp hget
    exact .inr ⟨m, List.mem_of_getElem? hm, hlookup m t hm⟩

theorem inv_start {mappings : List Mapping} (hplain : config.Plain)
    (hvalid : validateMappingSet config mappings = .ok ()) : Inv config (start mappings) where
  valid := hvalid
  holder _ _ hget := by cases hget
  free _ := ⟨rfl, serves_start (keys_nodup hplain hvalid)⟩
  held _ h := by cases h
  pending _ _ hget := by cases hget

/-- The database, the memory and the listener tasks have the same mappings, which are accepted. -/
structure Settled (config : Config) (s : Sys) : Prop where
  durable : s.durable = s.mappings
  valid : validateMappingSet config s.mappings = .ok ()
  serves : Serves s.tasks s.listeners s.mappings none

end Sys

variable {config : Config} {mappings : List Mapping} {s : Sys}

theorem inv_of_kept (hplain : config.Plain)
    (hvalid : validateMappingSet config mappings = .ok ())
    (h : (machine config mappings).ReachableWhere Sys.Kept s) : s.Inv config ∧ s.Noted := by
  apply h.invariant
  · exact ⟨Sys.inv_start hplain hvalid, fun i hi => by cases hi⟩
  · intro t a t' _ ht hkept hs
    obtain ⟨next, hact, rfl⟩ := Option.map_eq_some_iff.mp hs
    exact ⟨(ht.1.act hplain hkept hact).note, (Sys.accountable_act ht.1 hkept hact).noted ht.2⟩

/-- In runs in which no call is dropped once its write can be committed, all agree while no call has
the lock, and a call that fails or is dropped has changed nothing. -/
theorem settled_of_kept (hplain : config.Plain)
    (hvalid : validateMappingSet config mappings = .ok ())
    (h : (machine config mappings).ReachableWhere Sys.Kept s) :
    (s.lock = none → s.Settled config) ∧
      ∀ i operation, s.operations.get i = some operation →
        ((∃ error, operation.phase = .returned (.error error)) ∨ operation.phase = .dropped) →
        i ∉ s.touched := by
  obtain ⟨hinv, hnoted⟩ := inv_of_kept hplain hvalid h
  refine ⟨fun hlock => ?_, ?_⟩
  · obtain ⟨hdurable, hserves⟩ := hinv.free hlock
    exact ⟨hdurable, hinv.valid, hserves⟩
  · intro i operation hget hfailed htouched
    obtain ⟨operation', hget', heffective⟩ := hnoted i htouched
    rw [hget] at hget'
    rw [← Option.some.inj hget'] at heffective
    rcases heffective with hcommitted | ⟨answer, hreturned⟩
    · unfold Sys.Committed at hcommitted
      rcases hfailed with ⟨error, hphase⟩ | hphase <;> rw [hphase] at hcommitted <;>
        exact hcommitted
    · rcases hfailed with ⟨error, hphase⟩ | hphase <;> rw [hphase] at hreturned <;>
        cases hreturned

def homeConfig : Config := { homes := ["home-1"] }

def web : Mapping := ⟨"home-1", "web", .tcp, "127.0.0.1:8080"⟩

def movedWeb : Mapping := { web with bind := "127.0.0.1:8081" }

def ssh : Mapping := ⟨"home-1", "ssh", .tcp, "127.0.0.1:2222"⟩

theorem plain_homeConfig : homeConfig.Plain := by
  intro home hhome
  rw [List.mem_singleton.mp hhome]
  decide

theorem valid_web : validateMappingSet homeConfig [web] = .ok () := by decide

/-- A mapping is moved, one cannot bind, and one is dropped before its write fails. -/
theorem settled_of_kept_moved : ∃ s, (machine homeConfig [web]).ReachableWhere Sys.Kept s ∧
    s.mappings = [movedWeb] ∧ s.Settled homeConfig ∧ 1 ∉ s.touched ∧ 2 ∉ s.touched := by
  have hrun : ((machine homeConfig [web]).execWhere Sys.Kept [.call (.upsert movedWeb),
      .call (.upsert ssh), .call (.upsert ssh), .lock 0, .read 0, .bound 0 none, .written 0 none,
      .resume 0, .store 0, .publish 0, .listenerEnds 0, .stopped 0, .lock 1, .read 1,
      .bound 1 (some "failed to bind TCP mapping 127.0.0.1:2222"), .lock 2, .read 2, .bound 2 none,
      .drop 2, .written 1 (some "no space")]).map (fun s =>
        (s.mappings, s.lock, s.operations.get 1, s.operations.get 2)) = some ([movedWeb], none,
      some ⟨.upsert ssh, .returned (.error (.bindFailed "failed to bind TCP mapping 127.0.0.1:2222"))⟩,
      some ⟨.upsert ssh, .dropped⟩) := by
    decide
  obtain ⟨s, hexec, heq⟩ := Option.map_eq_some_iff.mp hrun
  have hreach := Machine.reachableWhere_of_execWhere hexec
  obtain ⟨hsettled, hfailed⟩ := settled_of_kept plain_homeConfig valid_web hreach
  obtain ⟨hmappings, hlock, hfirst, hsecond⟩ : s.mappings = [movedWeb] ∧ s.lock = none ∧
      s.operations.get 1 = some ⟨.upsert ssh,
        .returned (.error (.bindFailed "failed to bind TCP mapping 127.0.0.1:2222"))⟩ ∧
      s.operations.get 2 = some ⟨.upsert ssh, .dropped⟩ := by
    simpa using heq
  exact ⟨s, hreach, hmappings, hsettled hlock, hfailed 1 _ hfirst (.inl ⟨_, rfl⟩),
    hfailed 2 _ hsecond (.inr rfl)⟩

/-- The call is dropped while its write is running, and the write is committed. -/
theorem not_settled_of_dropped : ¬ ∀ config mappings s, config.Plain →
    validateMappingSet config mappings = .ok () → (machine config mappings).Reachable s →
    s.lock = none → s.Settled config := by
  intro h
  have hrun : ((machine homeConfig [web]).exec [.call (.upsert ssh), .lock 0, .read 0,
      .bound 0 none, .drop 0, .written 0 none]).map (fun s => (s.durable, s.mappings, s.lock)) =
      some ([web, ssh], [web], none) := by
    decide
  obtain ⟨s, hexec, heq⟩ := Option.map_eq_some_iff.mp hrun
  obtain ⟨hdurable, hmappings, hlock⟩ : s.durable = [web, ssh] ∧ s.mappings = [web] ∧
      s.lock = none := by
    simpa using heq
  have hsettled := h homeConfig [web] s plain_homeConfig valid_web
    (Machine.reachable_of_exec hexec) hlock
  have hsame := hsettled.durable
  rw [hdurable, hmappings] at hsame
  cases hsame

end FlowSplice.Mappings
