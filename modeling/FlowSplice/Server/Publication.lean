import FlowSplice.Lib.Publication
import FlowSplice.Server.Directory

/-! The directories that the Server publishes, and those that its Relays hold. -/
namespace FlowSplice.Server.Sys

open Control (RelayEndpoint RelayDirectory)

variable {connectable : String → Bool} {s s' : Sys} {a : Action} {id : Uuid}
  {session : RelaySession}

/-- Sessions make directories while the registry is locked, and publish them later. -/
def publications (s : Sys) : Publication.State Uuid RelayDirectory where
  drawn := s.made
  pending id := (s.sessions.lookup id).bind fun session => session.publishing.map (·.ticket)
  published := s.published.map (·.ticket)

/-- A session publishes its directory before any that was made later is published. -/
def inOrder (s : Sys) : Action → Prop
  | .publish id => ∀ session ∈ s.sessions.lookup id, ∀ made ∈ session.publishing,
      ∀ p ∈ s.published, p.ticket < made.ticket
  | _ => True

instance (s : Sys) (action : Action) : Decidable (s.inOrder action) :=
  match action with
  | .publish _ => inferInstanceAs (Decidable (∀ _ ∈ _, _))
  | .connect _ _ _ | .replace _ _ | .open _ | .notify _ | .update _ _ _ | .fail _ | .leave _
  | .unregister _ _ | .deliver _ | .sign _ => inferInstanceAs (Decidable True)

/-- The published directory only advances, and two of one generation are the same. With nothing left
to publish it is that of the registry. A connected Relay that has applied all it was sent, with
nothing left to send, holds the published directory. -/
structure Converges (s : Sys) : Prop where
  generations : s.published.Pairwise fun older newer =>
    older.directory.generation ≤ newer.directory.generation
  distinct : ∀ p ∈ s.published, ∀ q ∈ s.published,
    p.directory.generation = q.directory.generation → p.directory = q.directory
  settled : (∀ id session, s.sessions.lookup id = some session → session.publishing = none) →
    s.directory = s.registry.directory
  relays : ∀ id session, s.sessions.lookup id = some session → session.stage = .running →
    session.closed = false → session.sent = [] → session.seen = s.published.length →
      s.relays session.relay = s.directory

/-- What a connected Relay has been sent last, it has applied or will. -/
def Follows (s : Sys) (session : RelaySession) : Prop :=
  ∃ p, 0 < session.seen ∧ s.published[session.seen - 1]? = some p ∧
    (session.sent = [] → p.directory.generation ≤ (s.relays session.relay).generation) ∧
    ∀ directory, session.sent.getLast? = some directory → directory = p.directory

structure Converging (s : Sys) : Prop where
  tickets : Publication.Inv s.publications
  pending : ∀ id session made, s.sessions.lookup id = some session →
    session.publishing = some made → s.made[made.ticket]? = some made.directory
  published : ∀ p ∈ s.published, s.made[p.ticket]? = some p.directory
  rising : s.made.Pairwise fun older newer => older.generation < newer.generation
  bounded : ∀ directory ∈ s.made, 0 < directory.generation ∧
    directory.generation < s.nextGeneration
  last : s.made.getLast? = some s.registry.directory
  begun : s.published ≠ []
  held : ∀ relay, s.relays relay = {} ∨ ∃ p ∈ s.published, p.directory = s.relays relay
  sent : ∀ id session, s.sessions.lookup id = some session → ∀ directory ∈ session.sent,
    ∃ p ∈ s.published, p.directory = directory
  running : ∀ id session, s.sessions.lookup id = some session → session.stage = .running →
    session.closed = false → s.Follows session

theorem Converging.initial (generation : ℕ) :
    Converging (machine connectable generation).start := by
  constructor
  · constructor <;> simp [publications, machine]
  all_goals simp [machine, RelayDirectoryRegistry.directory, Table.values]

/-- Two made directories of one generation are the same. -/
theorem Converging.made_inj (hi : s.Converging) {d e : RelayDirectory} (hd : d ∈ s.made)
    (he : e ∈ s.made) (h : d.generation = e.generation) : d = e := by
  have hnodup : (s.made.map (·.generation)).Nodup :=
    List.pairwise_map.mpr (hi.rising.imp fun h => Nat.ne_of_lt h)
  exact List.inj_on_of_nodup_map hnodup hd he h

theorem Converging.mem_made (hi : s.Converging) {p : Made} (hp : p ∈ s.published) :
    p.directory ∈ s.made :=
  List.mem_of_getElem? (hi.published p hp)

theorem Converging.generations (hi : s.Converging) : s.published.Pairwise fun older newer =>
    older.directory.generation ≤ newer.directory.generation := by
  have hrising := hi.tickets.rising hi.rising
  refine (List.pairwise_map.mp hrising).imp_of_mem fun holder hnewer hR => ?_
  exact Nat.le_of_lt (hR _ _ (hi.published _ holder) (hi.published _ hnewer))

theorem Converging.exists_last (hi : s.Converging) :
    ∃ p, s.published.getLast? = some p ∧ s.directory = p.directory := by
  cases hl : s.published.getLast? with
  | none => exact absurd (List.getLast?_eq_none_iff.mp hl) hi.begun
  | some p => exact ⟨p, rfl, by simp [directory, hl]⟩

theorem Converging.converges (hi : s.Converging) : s.Converges := by
  obtain ⟨last, hlast, hdirectory⟩ := hi.exists_last
  constructor
  · exact hi.generations
  · exact fun p hp q hq heq => hi.made_inj (hi.mem_made hp) (hi.mem_made hq) heq
  · intro hidle
    have hpending : ∀ id, s.publications.pending id = none := fun id => by
      cases hs : s.sessions.lookup id with
      | none => simp [publications, hs]
      | some session => simp [publications, hs, hidle id session hs]
    have hne : s.publications.drawn ≠ [] := by
      intro hnil
      have hmade := hi.last
      rw [show s.made = [] from hnil] at hmade
      cases hmade
    have hticket := hi.tickets.settled hpending hne
    simp only [publications, List.getLast?_map, hlast, Option.map_some, Option.some.injEq]
      at hticket
    have hmade := hi.published last (List.mem_of_getLast? hlast)
    rw [hticket, ← List.getLast?_eq_getElem?, hi.last] at hmade
    rw [hdirectory, Option.some.inj hmade]
  · intro id session hsession hstage hclosed hsent hseen
    obtain ⟨p, hpos, hp, hle, -⟩ := hi.running id session hsession hstage hclosed
    have hle := hle hsent
    rw [hseen, ← List.getLast?_eq_getElem?, hlast] at hp
    obtain rfl := Option.some.inj hp
    have hpmem := List.mem_of_getLast? hlast
    rcases hi.held session.relay with hheld | ⟨q, hq, hheld⟩
    · have hbound := (hi.bounded _ (hi.mem_made hpmem)).1
      rw [hheld] at hle
      have hzero : last.directory.generation ≤ 0 := hle
      omega
    · have hge : q.directory.generation ≤ last.directory.generation := by
        rcases Log.rel_of_getLast? hi.generations hlast hq with hge | rfl
        · exact hge
        · exact le_rfl
      rw [← hheld] at hle
      rw [hdirectory, ← hheld]
      exact hi.made_inj (hi.mem_made hq) (hi.mem_made hpmem) (Nat.le_antisymm hge hle)

/-- A session goes on: what it was about to publish and what is on its way are left alone, unless
the connection is closed. -/
structure Continues (session session' : RelaySession) : Prop where
  relay : session'.relay = session.relay
  publishing : session'.publishing = session.publishing
  seen : session'.seen = session.seen
  opened : session'.closed = false → session'.sent = session.sent ∧ session.closed = false
  sent : session'.sent ⊆ session.sent
  running : session'.stage = .running → session.stage = .running

theorem Continues.refl (session : RelaySession) : Continues session session :=
  ⟨rfl, rfl, rfl, fun h => ⟨rfl, h⟩, List.Subset.refl _, fun h => h⟩

/-- Nothing is made, published or applied. -/
theorem Converging.frame (hi : s.Converging) (hmade : s'.made = s.made)
    (hpublished : s'.published = s.published) (hregistry : s'.registry = s.registry)
    (hnext : s.nextGeneration ≤ s'.nextGeneration) (hrelays : s'.relays = s.relays)
    (hpublications : s'.publications = s.publications)
    (hsessions : ∀ id session', s'.sessions.lookup id = some session' →
      (session'.stage = .registered ∧ session'.publishing = none ∧ session'.sent = []) ∨
      ∃ session, s.sessions.lookup id = some session ∧ Continues session session') :
    s'.Converging := by
  constructor
  · rw [hpublications]
    exact hi.tickets
  · rw [hmade]
    intro id session' made hl hp
    rcases hsessions id session' hl with ⟨-, hnone, -⟩ | ⟨session, hold, hsame⟩
    · rw [hnone] at hp
      cases hp
    · exact hi.pending id session made hold (hsame.publishing ▸ hp)
  · rw [hpublished, hmade]
    exact hi.published
  · rw [hmade]
    exact hi.rising
  · rw [hmade]
    intro directory hd
    obtain ⟨hpos, hlt⟩ := hi.bounded directory hd
    exact ⟨hpos, hlt.trans_le hnext⟩
  · rw [hmade, hregistry]
    exact hi.last
  · rw [hpublished]
    exact hi.begun
  · rw [hpublished, hrelays]
    exact hi.held
  · rw [hpublished]
    intro id session' hl directory hd
    rcases hsessions id session' hl with ⟨-, -, hnil⟩ | ⟨session, hold, hsame⟩
    · rw [hnil] at hd
      cases hd
    · exact hi.sent id session hold directory (hsame.sent hd)
  · intro id session' hl hstage hclosed
    rcases hsessions id session' hl with ⟨hreg, -, -⟩ | ⟨session, hold, hsame⟩
    · rw [hreg] at hstage
      cases hstage
    · obtain ⟨hsent, hclosed⟩ := hsame.opened hclosed
      have hfollows := hi.running id session hold (hsame.running hstage) hclosed
      unfold Follows at hfollows ⊢
      rwa [hsent, hsame.seen, hsame.relay, hpublished, hrelays]

/-- One session changes, and keeps the directory that it has to publish. -/
theorem publications_setSession {session session' : RelaySession}
    (hsession : s.sessions.lookup id = some session)
    (hs' : s'.sessions = s.sessions.insert id session')
    (hsame : session'.publishing = session.publishing) (hmade : s'.made = s.made)
    (hpublished : s'.published = s.published) : s'.publications = s.publications := by
  simp only [publications, hs', hmade, hpublished, Publication.State.mk.injEq, true_and, and_true]
  funext id'
  by_cases hid : id' = id
  · subst hid
    simp [hsession, hsame]
  · rw [AList.lookup_insert_ne hid]

theorem Converging.frame_session (hi : s.Converging) {session session' : RelaySession}
    (hsession : s.sessions.lookup id = some session)
    (hs' : s'.sessions = s.sessions.insert id session')
    (hmade : s'.made = s.made) (hpublished : s'.published = s.published)
    (hregistry : s'.registry = s.registry) (hnext : s'.nextGeneration = s.nextGeneration)
    (hrelays : s'.relays = s.relays)
    (hsame : Continues session session') : s'.Converging := by
  refine hi.frame hmade hpublished hregistry hnext.ge hrelays
    (publications_setSession hsession hs' hsame.publishing hmade hpublished) fun id' found hl => ?_
  rw [hs'] at hl
  rcases Table.lookup_insert_cases hl with ⟨rfl, rfl⟩ | ⟨-, hl⟩
  · exact .inr ⟨session, hsession, hsame⟩
  · exact .inr ⟨found, hl, .refl found⟩

/-- A session makes a directory. -/
theorem Converging.change (hi : s.Converging) {session session' : RelaySession}
    {registry : RelayDirectoryRegistry} (hsession : s.sessions.lookup id = some session)
    (hidle : session.publishing = none) (hgeneration : registry.generation = s.nextGeneration)
    (hrelay : session'.relay = session.relay) (hseen : session'.seen = session.seen)
    (hsent : session'.sent = session.sent) (hclosed : session'.closed = session.closed)
    (hstage : session'.stage = .running → session.stage = .running) :
    (s.change id session' registry (s.nextGeneration + 1)).Converging := by
  have hlast : registry.directory.generation = s.nextGeneration := hgeneration
  constructor
  · have hfree : s.publications.pending id = none := by simp [publications, hsession, hidle]
    refine cast (congrArg _ ?_) (hi.tickets.draw hfree registry.directory)
    simp only [publications, Publication.State.draw, Sys.change, Publication.State.mk.injEq,
      true_and, and_true]
    funext id'
    by_cases hid : id' = id
    · subst hid
      simp
    · simp [Function.update_of_ne hid, AList.lookup_insert_ne hid]
  · intro id' found made hl hmade
    rcases Table.lookup_insert_cases hl with ⟨-, rfl⟩ | ⟨-, hl⟩
    · rw [← Option.some.inj hmade]
      exact List.getElem?_concat_length
    · exact Log.getElem?_append_of_some (hi.pending id' found made hl hmade)
  · exact fun p hp => Log.getElem?_append_of_some (hi.published p hp)
  · refine Log.pairwise_append hi.rising fun older holder => ?_
    rw [hlast]
    exact (hi.bounded older holder).2
  · refine Log.forall_append (fun older holder => ?_) ?_
    · obtain ⟨hpos, hlt⟩ := hi.bounded older holder
      exact ⟨hpos, Nat.lt_succ_of_lt hlt⟩
    · rw [hlast]
      have hfirst := (hi.bounded _ (List.mem_of_getLast? hi.last))
      exact ⟨by omega, Nat.lt_succ_self _⟩
  · exact Log.getLast?_append
  · exact hi.begun
  · exact hi.held
  · intro id' found hl directory hd
    rcases Table.lookup_insert_cases hl with ⟨-, rfl⟩ | ⟨-, hl⟩
    · exact hi.sent id session hsession directory (hsent ▸ hd)
    · exact hi.sent id' found hl directory hd
  · intro id' found hl hrun hopen
    rcases Table.lookup_insert_cases hl with ⟨-, rfl⟩ | ⟨-, hl⟩
    · have hfollows := hi.running id session hsession (hstage hrun) (hclosed ▸ hopen)
      unfold Follows at hfollows ⊢
      rwa [hsent, hseen, hrelay]
    · exact hi.running id' found hl hrun hopen

theorem Converging.publish (hi : s.Converging) {session : RelaySession} {made : Made}
    (hok : s.inOrder (.publish id)) (hsession : s.sessions.lookup id = some session)
    (hmade : session.publishing = some made) :
    Converging { s.setSession id { session with publishing := none } with
      published := s.published ++ [made] } := by
  have hgrown : ∀ {d : RelayDirectory}, (∃ p ∈ s.published, p.directory = d) →
      ∃ p ∈ s.published ++ [made], p.directory = d := fun ⟨p, hp, heq⟩ =>
    ⟨p, List.mem_append_left _ hp, heq⟩
  constructor
  · have hpending : s.publications.pending id = some made.ticket := by
      simp [publications, hsession, hmade]
    have hordered : s.publications.InOrder made.ticket := fun j hj => by
      obtain ⟨p, hp, rfl⟩ := List.mem_map.mp hj
      exact hok session hsession made hmade p hp
    refine cast (congrArg _ ?_) (hi.tickets.publish hpending hordered)
    simp only [publications, Publication.State.publish, setSession, Publication.State.mk.injEq,
      true_and, List.map_append, List.map_cons, List.map_nil, and_true]
    funext id'
    by_cases hid : id' = id
    · subst hid
      simp
    · simp [Function.update_of_ne hid, AList.lookup_insert_ne hid]
  · intro id' found made' hl hmade'
    rcases Table.lookup_insert_cases hl with ⟨-, rfl⟩ | ⟨-, hl⟩
    · cases hmade'
    · exact hi.pending id' found made' hl hmade'
  · exact Log.forall_append hi.published (hi.pending id session made hsession hmade)
  · exact hi.rising
  · exact hi.bounded
  · exact hi.last
  · simp
  · exact fun relay => (hi.held relay).imp_right hgrown
  · intro id' found hl directory hd
    rcases Table.lookup_insert_cases hl with ⟨-, rfl⟩ | ⟨-, hl⟩
    · exact hgrown (hi.sent id session hsession directory hd)
    · exact hgrown (hi.sent id' found hl directory hd)
  · intro id' found hl hrun hopen
    have hfollows : s.Follows found := by
      rcases Table.lookup_insert_cases hl with ⟨-, rfl⟩ | ⟨-, hl⟩
      · exact hi.running id session hsession hrun hopen
      · exact hi.running id' found hl hrun hopen
    obtain ⟨p, hpos, hp, hrest⟩ := hfollows
    exact ⟨p, hpos, Log.getElem?_append_of_some hp, hrest⟩

theorem Converging.send (hi : s.Converging) {session : RelaySession}
    (hsession : s.sessions.lookup id = some session) : (s.send id session).Converging := by
  obtain ⟨last, hlast, hdirectory⟩ := hi.exists_last
  have hmem := List.mem_of_getLast? hlast
  constructor
  · have hpublications : (s.send id session).publications = s.publications :=
      publications_setSession hsession rfl rfl rfl rfl
    rw [hpublications]
    exact hi.tickets
  · intro id' found made hl hmade
    rcases Table.lookup_insert_cases hl with ⟨-, rfl⟩ | ⟨-, hl⟩
    · exact hi.pending id session made hsession hmade
    · exact hi.pending id' found made hl hmade
  · exact hi.published
  · exact hi.rising
  · exact hi.bounded
  · exact hi.last
  · exact hi.begun
  · exact hi.held
  · intro id' found hl directory hd
    rcases Table.lookup_insert_cases hl with ⟨-, rfl⟩ | ⟨-, hl⟩
    · refine Log.forall_append (hi.sent id session hsession) ?_ directory hd
      exact ⟨last, hmem, hdirectory.symm⟩
    · exact hi.sent id' found hl directory hd
  · intro id' found hl hrun hopen
    rcases Table.lookup_insert_cases hl with ⟨-, rfl⟩ | ⟨-, hl⟩
    · refine ⟨last, List.length_pos_of_mem hmem, ?_, ?_, ?_⟩
      · show s.published[s.published.length - 1]? = some last
        rw [← List.getLast?_eq_getElem?]
        exact hlast
      · intro hnil
        simp at hnil
      · intro directory hd
        have hd : s.directory = directory := by simpa using hd
        rw [← hd, hdirectory]
    · exact hi.running id' found hl hrun hopen

/-- A Relay applies a directory. -/
theorem Converging.deliver (hi : s.Converging) {session : RelaySession}
    {directory applied : RelayDirectory} {sent : List RelayDirectory}
    (hsession : s.sessions.lookup id = some session) (hsent : session.sent = directory :: sent)
    (happlied : applyRelayDirectory connectable (s.relays session.relay) directory =
      some applied) :
    Converging { s.setSession id { session with sent := sent } with
      relays := Function.update s.relays session.relay applied } := by
  have hmem : directory ∈ session.sent := by simp [hsent]
  have hpublished := hi.sent id session hsession directory hmem
  have hcases := applyRelayDirectory_eq_some happlied
  have hrises : ∀ relay, (s.relays relay).generation ≤
      (Function.update s.relays session.relay applied relay).generation := fun relay => by
    by_cases hr : relay = session.relay
    · subst hr
      rw [Function.update_self]
      rcases hcases with ⟨rfl, -⟩ | ⟨rfl, hlt⟩
      · exact le_rfl
      · exact Nat.le_of_lt hlt
    · rw [Function.update_of_ne hr]
  have hreached : directory.generation ≤ applied.generation := by
    rcases hcases with ⟨rfl, hle⟩ | ⟨rfl, -⟩
    · exact hle
    · exact le_rfl
  constructor
  · have hpublications : publications { s.setSession id { session with sent := sent } with
        relays := Function.update s.relays session.relay applied } = s.publications :=
      publications_setSession hsession rfl rfl rfl rfl
    rw [hpublications]
    exact hi.tickets
  · intro id' found made hl hmade
    rcases Table.lookup_insert_cases hl with ⟨-, rfl⟩ | ⟨-, hl⟩
    · exact hi.pending id session made hsession hmade
    · exact hi.pending id' found made hl hmade
  · exact hi.published
  · exact hi.rising
  · exact hi.bounded
  · exact hi.last
  · exact hi.begun
  · intro relay
    show Function.update s.relays session.relay applied relay = {} ∨
      ∃ p ∈ s.published, p.directory = Function.update s.relays session.relay applied relay
    by_cases hr : relay = session.relay
    · subst hr
      rw [Function.update_self]
      rcases hcases with ⟨rfl, -⟩ | ⟨rfl, -⟩
      · exact hi.held session.relay
      · exact .inr hpublished
    · rw [Function.update_of_ne hr]
      exact hi.held relay
  · intro id' found hl d hd
    rcases Table.lookup_insert_cases hl with ⟨-, rfl⟩ | ⟨-, hl⟩
    · refine hi.sent id session hsession d ?_
      rw [hsent]
      exact List.mem_cons_of_mem _ hd
    · exact hi.sent id' found hl d hd
  · intro id' found hl hrun hopen
    rcases Table.lookup_insert_cases hl with ⟨-, rfl⟩ | ⟨-, hl⟩
    · obtain ⟨p, hpos, hp, -, hgetLast⟩ := hi.running id session hsession hrun hopen
      refine ⟨p, hpos, hp, fun hnil => ?_, fun d hd => hgetLast d ?_⟩
      · have hnil : sent = [] := hnil
        have heq : directory = p.directory := hgetLast directory (by simp [hsent, hnil])
        show p.directory.generation ≤
          (Function.update s.relays session.relay applied session.relay).generation
        rw [Function.update_self, ← heq]
        exact hreached
      · have hd : sent.getLast? = some d := hd
        rw [hsent, List.getLast?_cons, hd]
        rfl
    · obtain ⟨p, hpos, hp, hle, hgetLast⟩ := hi.running id' found hl hrun hopen
      exact ⟨p, hpos, hp, fun hnil => (hle hnil).trans (hrises found.relay), hgetLast⟩

theorem Converging.step (hi : s.Converging) (hok : s.inOrder a)
    (h : s.Moves connectable a s') : s'.Converging := by
  cases h with
  | connect id relay endpoint hfree hnamed =>
    refine hi.frame rfl rfl rfl le_rfl rfl ?_ fun id' found hl => ?_
    · simp only [publications, setSession, Publication.State.mk.injEq, true_and, and_true]
      funext id'
      by_cases hid : id' = id
      · subst hid
        simp [hfree]
      · rw [AList.lookup_insert_ne hid]
    · rcases Table.lookup_insert_cases hl with ⟨-, rfl⟩ | ⟨-, hl⟩
      · exact .inl ⟨rfl, rfl, rfl⟩
      · exact .inr ⟨found, hl, .refl found⟩
  | replace id stored session hsession hidle hstage =>
    exact hi.change hsession hidle rfl rfl rfl rfl rfl fun h => (by cases h)
  | update id endpoint stored session hsession hidle hstage hnamed hcurrent =>
    exact hi.change hsession hidle rfl rfl rfl rfl rfl fun h => h
  | unregister id stored session hsession hidle hstage hcurrent =>
    exact hi.change hsession hidle rfl rfl rfl rfl rfl fun h => (by cases h)
  | publish id session made hsession hmade => exact hi.publish hok hsession hmade
  | send a id session hsession hidle hstage => exact hi.send hsession
  | fail a id session refused hsession hidle hstage hrefused =>
    exact hi.frame_session hsession rfl rfl rfl rfl rfl rfl
      ⟨rfl, rfl, rfl, fun h => ⟨rfl, h⟩, List.Subset.refl _, fun h => (by cases h)⟩
  | leave id session hsession hidle hstage hcurrent =>
    exact hi.frame_session hsession rfl rfl rfl rfl rfl rfl
      ⟨rfl, rfl, rfl, fun h => ⟨rfl, h⟩, List.Subset.refl _, fun h => (by cases h)⟩
  | gone a id session hsession hidle hstage =>
    exact hi.frame_session hsession rfl rfl rfl rfl rfl rfl
      ⟨rfl, rfl, rfl, fun h => ⟨rfl, h⟩, List.Subset.refl _, fun h => (by cases h)⟩
  | deliver id session directory applied sent hsession hsent happlied =>
    exact hi.deliver hsession hsent happlied
  | close id session hsession =>
    exact hi.frame_session hsession rfl rfl rfl rfl rfl rfl
      ⟨rfl, rfl, rfl, fun h => (by cases h), List.nil_subset _, fun h => h⟩
  | sign stored =>
    exact hi.frame rfl rfl rfl (Nat.le_succ _) rfl rfl fun id found hl =>
      .inr ⟨found, hl, .refl found⟩

/-- With publications in the order of the changes, the directory converges. -/
theorem converges_of_inOrder (connectable : String → Bool) (generation : ℕ) (s : Sys)
    (hr : (machine connectable generation).ReachableWhere inOrder s) : s.Converges := by
  have hstart : Converging (machine connectable generation).start := Converging.initial generation
  have hi : s.Converging := hr.invariant hstart
    fun _ _ _ _ hi hok hs => hi.step hok (step_moves hs)
  exact hi.converges

/-- Two Relays connect, one of them withdraws its endpoint, and both apply every directory. -/
theorem converges_of_inOrder_withdrawn :
    ∃ s, (machine (fun _ => true) 0).execWhere inOrder
      [.connect 1 "relay-1" (some (sampleEndpoint "relay-1" "10.0.0.1:1")),
        .connect 2 "relay-2" (some (sampleEndpoint "relay-2" "10.0.0.2:1")), .replace 1 true,
        .publish 1, .open 1, .replace 2 true, .publish 2, .open 2, .update 2 none true, .publish 2,
        .notify 1, .notify 2, .deliver 1, .deliver 1, .deliver 2, .deliver 2] = some s ∧
    s.directory.generation = 4 ∧ s.directory.relays.map (·.id) = ["relay-1"] ∧
    s.relays "relay-2" = s.directory ∧ s.Converges := by
  have hrun : ((machine (fun _ => true) 0).execWhere inOrder
      [.connect 1 "relay-1" (some (sampleEndpoint "relay-1" "10.0.0.1:1")),
        .connect 2 "relay-2" (some (sampleEndpoint "relay-2" "10.0.0.2:1")), .replace 1 true,
        .publish 1, .open 1, .replace 2 true, .publish 2, .open 2, .update 2 none true, .publish 2,
        .notify 1, .notify 2, .deliver 1, .deliver 1, .deliver 2, .deliver 2]).map (fun s =>
          (s.directory.generation, s.directory.relays.map (·.id),
            decide (s.relays "relay-2" = s.directory))) = some (4, ["relay-1"], true) := by
    decide
  obtain ⟨s, hs, heq⟩ := Option.map_eq_some_iff.mp hrun
  obtain ⟨hgeneration, hrest⟩ := Prod.mk.inj heq
  obtain ⟨hrelays, hheld⟩ := Prod.mk.inj hrest
  exact ⟨s, hs, hgeneration, hrelays, of_decide_eq_true hheld,
    converges_of_inOrder (fun _ => true) 0 s (Machine.reachableWhere_of_execWhere hs)⟩

/-- The directory of the second Relay is published before that of the first, which was made before. -/
theorem not_converges_of_reachable :
    ¬ ∀ (connectable : String → Bool) (generation : ℕ) (s : Sys),
      (machine connectable generation).Reachable s → s.Converges := by
  intro hall
  have hrun : ((machine (fun _ => true) 0).exec
      [.connect 1 "relay-1" (some (sampleEndpoint "relay-1" "10.0.0.1:1")),
        .connect 2 "relay-2" (some (sampleEndpoint "relay-2" "10.0.0.2:1")), .replace 1 true,
        .replace 2 true, .publish 2, .publish 1]).map (fun s => s.published.map fun p =>
          (p.directory.generation, p.directory.relays.map (·.id))) =
      some [(1, []), (3, ["relay-1", "relay-2"]), (2, ["relay-1"])] := by
    decide
  obtain ⟨s, hs, heq⟩ := Option.map_eq_some_iff.mp hrun
  have hgenerations := (hall (fun _ => true) 0 s (Machine.reachable_of_exec hs)).generations
  have hpairs := List.pairwise_map (f := fun p : Made =>
    (p.directory.generation, p.directory.relays.map (·.id)))
    (R := fun older newer => older.1 ≤ newer.1) |>.mpr hgenerations
  rw [heq] at hpairs
  have hle := List.rel_of_pairwise_cons (List.pairwise_cons.mp hpairs).2 List.mem_cons_self
  omega

end FlowSplice.Server.Sys
