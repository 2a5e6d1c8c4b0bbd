import FlowSplice.Server.Broadcast

/-! In which order control connections are sent authorization snapshots, and that they end with the
current one. -/
namespace FlowSplice.Server.Broadcast

def Stage.snapshot : Stage → Option TravelAuthorizationSnapshot
  | .catching snapshot => some snapshot
  | _ => none

/-- To a Home nothing is queued after what is newer. -/
def Session.AtEnd (session : Session) (snapshot : TravelAuthorizationSnapshot) : Prop :=
  session.node.kind = .home →
    ∀ earlier ∈ session.written ++ session.queue, earlier.generation ≤ snapshot.generation

instance (session : Session) (snapshot : TravelAuthorizationSnapshot) :
    Decidable (session.AtEnd snapshot) :=
  inferInstanceAs (Decidable (_ → _))

def sampleHomeNode : Node := ⟨.home, "home-1"⟩

def sampleRelayNode : Node := ⟨.relay, "relay-1"⟩

namespace Sys

/-- No broadcast is going on, and every session is over or has written what was sent to it. -/
def Quiet (s : Sys) : Prop :=
  s.broadcasts.Idle ∧ s.publishes.Idle ∧ ∀ id session, s.sessions.lookup id = some session →
    session.stage = .ended ∨ session.stage = .running ∧ session.queue = []

/-- Generations rise on every connection, registered sessions end with the current snapshot, and no
node has refused one. -/
structure Current (s : Sys) : Prop where
  rising : ∀ id session, s.sessions.lookup id = some session →
    session.written.Pairwise fun earlier later => earlier.generation ≤ later.generation
  latest : s.Quiet → ∀ node id, s.registry.lookup node = some id → ∃ session,
    s.sessions.lookup id = some session ∧ session.written.getLast? = s.current
  accepted : s.refused = []

/-- The generations written to a session. -/
def writtenTo (s : Sys) (id : Uuid) : List ℕ :=
  ((s.sessions.lookup id).elim [] Session.written).map (·.generation)

/-- The snapshots are queued for a Home in the order of the changes. -/
def inOrder (s : Sys) : Action → Prop
  | .send i => ∀ publish ∈ s.publishes.get i, ∀ session ∈ s.sessions.lookup publish.session,
      session.AtEnd publish.snapshot
  | .catchUp id => ∀ session ∈ s.sessions.lookup id, ∀ snapshot ∈ session.stage.snapshot,
      session.AtEnd snapshot
  | _ => True

instance (s : Sys) (action : Action) : Decidable (s.inOrder action) :=
  match action with
  | .send _ | .catchUp _ => inferInstanceAs (Decidable (∀ _ ∈ _, _))
  | .load _ | .stop | .change _ | .rebroadcast | .collectRelays _ | .collectHomes _ | .connect _ _
  | .register _ | .read _ | .write _ | .deliver _ | .close _ => inferInstanceAs (Decidable True)

end Sys

/-- Generations do not fall. -/
abbrev Rising (snapshots : List TravelAuthorizationSnapshot) : Prop :=
  snapshots.Pairwise fun earlier later => earlier.generation ≤ later.generation

/-- What a session has been sent was published, and what it wrote rises. What is queued for a Home
rises from there; a Relay has written nothing newer than its generation. -/
structure Session.Ordered (published : List TravelAuthorizationSnapshot) (session : Session) :
    Prop where
  written : ∀ snapshot ∈ session.written, snapshot ∈ published
  queue : ∀ snapshot ∈ session.queue, snapshot ∈ published
  catching : ∀ snapshot, session.stage = .catching snapshot → snapshot ∈ published
  initial : session.initial ∈ session.written
  wire : session.wire <:+ session.written
  rising : Rising session.written
  home : session.node.kind = .home → Rising (session.written ++ session.queue)
  relay : session.node.kind = .relay →
    (∀ snapshot ∈ session.written, snapshot.generation ≤ session.authorizationGeneration) ∧
      ∃ snapshot ∈ session.written, session.authorizationGeneration = snapshot.generation

namespace Session
variable {published published' : List TravelAuthorizationSnapshot} {session : Session}
  {snapshot : TravelAuthorizationSnapshot} {queue : List TravelAuthorizationSnapshot}

theorem Ordered.mono (h : session.Ordered published) (hsub : published ⊆ published') :
    session.Ordered published' where
  written := fun x hx => hsub (h.written x hx)
  queue := fun x hx => hsub (h.queue x hx)
  catching := fun x hx => hsub (h.catching x hx)
  initial := h.initial
  wire := h.wire
  rising := h.rising
  home := h.home
  relay := h.relay

theorem Ordered.enter (h : session.Ordered published) (stage : Stage)
    (hstage : ∀ snapshot, stage = .catching snapshot → snapshot ∈ published) :
    Ordered published { session with stage := stage } where
  written := h.written
  queue := h.queue
  catching := hstage
  initial := h.initial
  wire := h.wire
  rising := h.rising
  home := h.home
  relay := h.relay

theorem Ordered.clear (h : session.Ordered published) (stage : Stage)
    (hstage : ∀ snapshot, stage = .catching snapshot → snapshot ∈ published) :
    Ordered published { session with stage := stage, queue := [] } where
  written := h.written
  queue := fun _ hx => by cases hx
  catching := hstage
  initial := h.initial
  wire := h.wire
  rising := h.rising
  home := fun _ => by
    rw [List.append_nil]
    exact h.rising
  relay := h.relay

theorem Ordered.receive (h : session.Ordered published)
    {wire : List TravelAuthorizationSnapshot} (hwire : session.wire = snapshot :: wire) :
    Ordered published { session with wire := wire } where
  written := h.written
  queue := h.queue
  catching := h.catching
  initial := h.initial
  wire := by
    have hsuffix := h.wire
    rw [hwire] at hsuffix
    exact (List.suffix_cons snapshot wire).trans hsuffix
  rising := h.rising
  home := h.home
  relay := h.relay

theorem Ordered.enqueue (h : session.Ordered published) (hknown : snapshot ∈ published)
    (hend : session.AtEnd snapshot) : (session.enqueue snapshot).Ordered published where
  written := h.written
  queue := Log.forall_append h.queue hknown
  catching := h.catching
  initial := h.initial
  wire := h.wire
  rising := h.rising
  home := fun hkind => by
    show Rising (session.written ++ (session.queue ++ [snapshot]))
    rw [← List.append_assoc]
    exact Log.pairwise_append (h.home hkind) (hend hkind)
  relay := h.relay

theorem wire_put (h : session.wire <:+ session.written) :
    (session.put snapshot).wire <:+ (session.put snapshot).written := by
  obtain ⟨sent, hsent⟩ := h
  refine ⟨sent, ?_⟩
  show sent ++ (session.wire ++ [snapshot]) = session.written ++ [snapshot]
  rw [← List.append_assoc, hsent]

/-- A Relay drops what is older than what it wrote last. -/
theorem Ordered.write_relay (h : session.Ordered published) (hkind : session.node.kind = .relay)
    (hknown : snapshot ∈ published) : (session.write snapshot).Ordered published := by
  obtain ⟨hbound, hlast⟩ := h.relay hkind
  unfold write
  rw [hkind]
  dsimp only
  split_ifs with hold
  · exact h
  · have hle : ∀ earlier ∈ session.written, earlier.generation ≤ snapshot.generation := by
      intro earlier hearlier
      have hle := hbound earlier hearlier
      omega
    constructor
    · exact Log.forall_append h.written hknown
    · exact h.queue
    · exact h.catching
    · exact List.mem_append_left _ h.initial
    · exact wire_put h.wire
    · exact Log.pairwise_append h.rising hle
    · intro hhome
      have hhome : session.node.kind = .home := hhome
      rw [hkind] at hhome
      cases hhome
    · intro _
      constructor
      · exact Log.forall_append hle (Nat.le_refl _)
      · exact ⟨snapshot, Log.mem_append_self, rfl⟩

/-- A Home writes what is next in its queue. -/
theorem Ordered.write_home (h : session.Ordered published) (hkind : session.node.kind = .home)
    (hqueue : session.queue = snapshot :: queue) :
    ({ session with queue := queue }.write snapshot).Ordered published := by
  have hhome := h.home hkind
  rw [hqueue] at hhome
  have hknown : ∀ x ∈ snapshot :: queue, x ∈ published := by
    rw [← hqueue]
    exact h.queue
  have hput : { session with queue := queue }.write snapshot =
      { session with queue := queue }.put snapshot := by
    simp only [Session.write, hkind]
  have hsplit : session.written ++ snapshot :: queue = (session.written ++ [snapshot]) ++ queue := by
    simp
  rw [hsplit] at hhome
  rw [hput]
  have hwire : Session.wire { session with queue := queue } <:+
      Session.written { session with queue := queue } := h.wire
  constructor
  · exact Log.forall_append h.written (hknown snapshot List.mem_cons_self)
  · exact fun x hx => hknown x (List.mem_cons_of_mem _ hx)
  · exact h.catching
  · exact List.mem_append_left _ h.initial
  · exact wire_put hwire
  · exact (List.pairwise_append.mp hhome).1
  · exact fun _ => hhome
  · intro hrelay
    have hrelay : session.node.kind = .relay := hrelay
    rw [hkind] at hrelay
    cases hrelay

/-- The queue of any session is served. -/
theorem Ordered.write (h : session.Ordered published)
    (hqueue : session.queue = snapshot :: queue) :
    ({ session with queue := queue }.write snapshot).Ordered published := by
  cases hkind : session.node.kind with
  | home => exact h.write_home hkind hqueue
  | relay =>
    have hknown : ∀ x ∈ snapshot :: queue, x ∈ published := by
      rw [← hqueue]
      exact h.queue
    have hpopped : Ordered published { session with queue := queue } :=
      { written := h.written
        queue := fun x hx => hknown x (List.mem_cons_of_mem _ hx)
        catching := h.catching
        initial := h.initial
        wire := h.wire
        rising := h.rising
        home := fun hhome => by
          have hhome : session.node.kind = .home := hhome
          rw [hkind] at hhome
          cases hhome
        relay := h.relay }
    exact hpopped.write_relay hkind (hknown snapshot List.mem_cons_self)

theorem write_queue (session : Session) (queue : List TravelAuthorizationSnapshot)
    (snapshot : TravelAuthorizationSnapshot) :
    ({ session with queue }.write snapshot).written = (session.write snapshot).written := by
  cases hkind : session.node.kind with
  | home => simp [Session.write, hkind, put]
  | relay =>
    by_cases hold : snapshot.generation < session.authorizationGeneration
    · simp [Session.write, hkind, hold]
    · simp [Session.write, hkind, hold, put]

theorem write_cases (session : Session) (snapshot : TravelAuthorizationSnapshot) :
    session.write snapshot = session ∨ session.write snapshot = session.put snapshot := by
  unfold Session.write
  split
  · exact .inr rfl
  · split
    · exact .inl rfl
    · exact .inr rfl

/-- Writing touches neither the node nor the stage nor the queue. -/
theorem write_frame (session : Session) (snapshot : TravelAuthorizationSnapshot) :
    (session.write snapshot).node = session.node ∧ (session.write snapshot).stage = session.stage ∧
      (session.write snapshot).queue = session.queue := by
  rcases session.write_cases snapshot with h | h
  · rw [h]
    exact ⟨rfl, rfl, rfl⟩
  · rw [h]
    exact ⟨rfl, rfl, rfl⟩

/-- What was written stays written, and so is what is not older than it. -/
theorem mem_write (session : Session) (snapshot : TravelAuthorizationSnapshot) :
    (∀ x ∈ session.written, x ∈ (session.write snapshot).written) ∧
      (session.authorizationGeneration ≤ snapshot.generation ∨ session.node.kind = .home →
        snapshot ∈ (session.write snapshot).written) := by
  unfold write
  split
  · exact ⟨fun x hx => List.mem_append_left _ hx, fun _ => Log.mem_append_self⟩
  · next hkind =>
    split
    · next hold =>
      constructor
      · exact fun x hx => hx
      · rintro (hle | hhome)
        · omega
        · rw [hkind] at hhome
          cases hhome
    · exact ⟨fun x hx => List.mem_append_left _ hx, fun _ => Log.mem_append_self⟩

/-- A registered session that has yet to look, or is given this snapshot. -/
def Due (session : Session) (snapshot : TravelAuthorizationSnapshot) : Prop :=
  session.stage = .registered ∨ session.stage = .catching snapshot ∨
    snapshot ∈ session.written ∨ snapshot ∈ session.queue

/-- The cache of a node is not ahead of what it has yet to read. -/
def Behind (session : Session) (config : ServerConfig) (cache : AuthorizationCache) : Prop :=
  cache = {} ∨ ∃ older, cache = config.cacheOf older ∧
    (∀ snapshot ∈ session.wire, older.generation ≤ snapshot.generation) ∧
    ∃ snapshot ∈ session.written, older.generation ≤ snapshot.generation

variable {config : ServerConfig} {cache : AuthorizationCache}

theorem Behind.put (h : session.Behind config cache)
    (hle : ∀ earlier ∈ session.written, earlier.generation ≤ snapshot.generation) :
    (session.put snapshot).Behind config cache := by
  rcases h with hnew | ⟨older, hcache, hwire, last, hlast, hle'⟩
  · exact .inl hnew
  · have hnewer : older.generation ≤ snapshot.generation := hle'.trans (hle last hlast)
    refine .inr ⟨older, hcache, ?_, last, List.mem_append_left _ hlast, hle'⟩
    exact Log.forall_append hwire hnewer

/-- What rises after a write was not behind the cache. -/
theorem Behind.write (h : session.Behind config cache)
    (hrising : Rising (session.write snapshot).written) :
    (session.write snapshot).Behind config cache := by
  rcases session.write_cases snapshot with hsame | hput
  · rw [hsame]
    exact h
  · rw [hput] at hrising ⊢
    have hle := (List.pairwise_append.mp hrising).2.2
    exact h.put fun earlier hearlier => hle earlier hearlier snapshot List.mem_cons_self

end Session

namespace Sys
variable {config : ServerConfig} {file : AuthorizationFile} {s s' : Sys} {a : Action}
  {cur snapshot : TravelAuthorizationSnapshot} {id : Uuid} {session next : Session}

def Sending (s : Sys) (id : Uuid) (snapshot : TravelAuthorizationSnapshot) : Prop :=
  ∃ i, s.publishes.get i = some ⟨id, snapshot⟩

/-- A broadcast has yet to collect the senders of this kind of node. -/
def Collecting (s : Sys) (kind : Kind) (snapshot : TravelAuthorizationSnapshot) : Prop :=
  ∃ i broadcast, s.broadcasts.get i = some broadcast ∧ broadcast.snapshot = snapshot ∧
    (kind = .relay → broadcast.relays = false)

/-- The snapshot was written to the session, or will be. -/
def Reaches (s : Sys) (id : Uuid) (session : Session) (snapshot : TravelAuthorizationSnapshot) :
    Prop :=
  session.Due snapshot ∨ s.Sending id snapshot ∨ s.Collecting session.node.kind snapshot

/-- What is on its way to sessions was published, and so was what a node remembers. -/
structure Known (config : ServerConfig) (s : Sys) : Prop where
  current : ∀ snapshot, s.current = some snapshot → snapshot ∈ s.authority.published
  broadcasts : ∀ i broadcast, s.broadcasts.get i = some broadcast →
    broadcast.snapshot ∈ s.authority.published
  publishes : ∀ i publish, s.publishes.get i = some publish →
    publish.snapshot ∈ s.authority.published
  caches : ∀ node, s.caches node = {} ∨
    ∃ older ∈ s.authority.published, s.caches node = config.cacheOf older

/-- What is published does not shrink. -/
theorem Known.mono (h : s.Known config) {authority : AuthorizationServer.Sys}
    (hsub : s.authority.published ⊆ authority.published)
    (hcurrent : ∀ cur, authority.server.map (·.snapshot) = some cur → cur ∈ authority.published) :
    Known config { s with authority } where
  current := hcurrent
  broadcasts := fun i broadcast hb => hsub (h.broadcasts i broadcast hb)
  publishes := fun i publish hp => hsub (h.publishes i publish hp)
  caches := fun node => (h.caches node).imp_right fun ⟨older, ho, hof⟩ => ⟨older, hsub ho, hof⟩

/-- The registered sessions are sent the current snapshot, and no live session is behind its node. -/
structure Inv (config : ServerConfig) (file : AuthorizationFile) (s : Sys) : Prop where
  authority : (AuthorizationServer.machine config file).Reachable s.authority
  known : s.Known config
  idle : s.authority.server = none → s.sessions = ∅
  ordered : ∀ id session, s.sessions.lookup id = some session →
    session.Ordered s.authority.published
  registered : ∀ node id, s.registry.lookup node = some id → ∃ session,
    s.sessions.lookup id = some session ∧ session.node = node ∧ session.receives = true ∧
      ∀ cur, s.current = some cur → s.Reaches id session cur
  live : ∀ node id, s.live.lookup node = some id → ∃ session,
    s.sessions.lookup id = some session ∧ session.node = node ∧
      session.Behind config (s.caches node)
  refused : s.refused = []

/-- Of two published snapshots, the one of the smaller generation is not ahead. -/
theorem Inv.le (h : s.Inv config file) {older newer : TravelAuthorizationSnapshot}
    (ho : older ∈ s.authority.published) (hn : newer ∈ s.authority.published)
    (hle : older.generation ≤ newer.generation) : older ≤ newer :=
  AuthorizationServer.Sys.le_of_generation_le h.authority ho hn hle

/-- Nothing that was published is ahead of the Server. -/
theorem Inv.le_current (h : s.Inv config file) (hcur : s.current = some cur)
    (hsnapshot : snapshot ∈ s.authority.published) : snapshot ≤ cur := by
  have hmarks := (AuthorizationServer.Sys.sound_of_reachable h.authority).2
  exact (hmarks.memory cur hcur).1 snapshot hsnapshot

theorem Inv.eq_current (h : s.Inv config file) (hcur : s.current = some cur)
    (hsnapshot : snapshot ∈ s.authority.published) (hle : cur.generation ≤ snapshot.generation) :
    snapshot = cur := by
  have hbefore := h.le_current hcur hsnapshot
  have hge := TravelAuthorizationSnapshot.generation_le_of_le hbefore
  exact TravelAuthorizationSnapshot.eq_of_le_of_generation_eq hbefore (by omega)

/-- Where there is a session, there is a Server. -/
theorem Inv.exists_current (h : s.Inv config file) (hsession : s.sessions.lookup id = some session) :
    ∃ cur, s.current = some cur := by
  cases hserver : s.authority.server with
  | none =>
    rw [h.idle hserver] at hsession
    cases hsession
  | some server =>
    refine ⟨server.snapshot, ?_⟩
    unfold current
    rw [hserver]
    rfl

/-- A session moves on, and takes what was sent to it. -/
theorem Inv.update (h : s.Inv config file) {publishes : Slots Publish}
    (hfrom : ∀ i publish, publishes.get i = some publish → s.publishes.get i = some publish)
    (hothers : ∀ i publish, s.publishes.get i = some publish → publish.session ≠ id →
      publishes.get i = some publish)
    (hsession : s.sessions.lookup id = some session) (hnode : next.node = session.node)
    (hordered : next.Ordered s.authority.published)
    (hregistered : s.registry.lookup session.node = some id → session.receives = true →
      next.receives = true ∧ ∀ cur, s.current = some cur → s.Reaches id session cur →
        Reaches { s with publishes } id next cur)
    (hbehind : ∀ cache, session.Behind config cache → next.Behind config cache) :
    Inv config file { s with publishes, sessions := s.sessions.insert id next } := by
  constructor
  · exact h.authority
  · exact ⟨h.known.current, h.known.broadcasts,
      fun i publish hp => h.known.publishes i publish (hfrom i publish hp), h.known.caches⟩
  · intro hserver
    obtain ⟨cur, hcur⟩ := h.exists_current hsession
    have hserver : s.authority.server = none := hserver
    unfold current at hcur
    rw [hserver] at hcur
    cases hcur
  · intro id' other hother
    rcases Table.lookup_insert_cases hother with ⟨-, rfl⟩ | ⟨-, hother⟩
    · exact hordered
    · exact h.ordered id' other hother
  · intro node id' hregistry
    obtain ⟨other, hother, hnode', hreceives, hreaches⟩ := h.registered node id' hregistry
    obtain ⟨found, hfound, ⟨rfl, rfl⟩ | ⟨hne, rfl⟩⟩ :=
      Table.exists_lookup_insert (k := id) (a := next) hother
    · rw [hsession] at hother
      obtain rfl := Option.some.inj hother
      have hregistry : s.registry.lookup session.node = some id' := by
        rw [hnode']
        exact hregistry
      obtain ⟨hreceives', hreaches'⟩ := hregistered hregistry hreceives
      refine ⟨found, hfound, hnode.trans hnode', hreceives', fun cur hcur => ?_⟩
      exact hreaches' cur hcur (hreaches cur hcur)
    · refine ⟨found, hfound, hnode', hreceives, fun cur hcur => ?_⟩
      rcases hreaches cur hcur with hdue | ⟨i, hi⟩ | hcollecting
      · exact .inl hdue
      · exact .inr (.inl ⟨i, hothers i _ hi hne⟩)
      · exact .inr (.inr hcollecting)
  · intro node id' hlive
    obtain ⟨other, hother, hnode', hbehind'⟩ := h.live node id' hlive
    obtain ⟨found, hfound, ⟨rfl, rfl⟩ | ⟨-, rfl⟩⟩ :=
      Table.exists_lookup_insert (k := id) (a := next) hother
    · rw [hsession] at hother
      obtain rfl := Option.some.inj hother
      exact ⟨found, hfound, hnode.trans hnode', hbehind _ hbehind'⟩
    · exact ⟨found, hfound, hnode', hbehind'⟩
  · exact h.refused

theorem Inv.setSession (h : s.Inv config file) (hsession : s.sessions.lookup id = some session)
    (hnode : next.node = session.node) (hordered : next.Ordered s.authority.published)
    (hregistered : s.registry.lookup session.node = some id → session.receives = true →
      next.receives = true ∧ ∀ cur, s.current = some cur → s.Reaches id session cur →
        s.Reaches id next cur)
    (hbehind : ∀ cache, session.Behind config cache → next.Behind config cache) :
    (s.setSession id next).Inv config file :=
  h.update (fun _ _ hp => hp) (fun _ _ hp _ => hp) hsession hnode hordered hregistered hbehind

/-- Entries are removed from the registry. -/
theorem Inv.unregister (h : s.Inv config file) {registry : Table Node Uuid}
    (hsub : ∀ node id, registry.lookup node = some id → s.registry.lookup node = some id) :
    Inv config file { s with registry } where
  authority := h.authority
  known := ⟨h.known.current, h.known.broadcasts, h.known.publishes, h.known.caches⟩
  idle := h.idle
  ordered := h.ordered
  registered := fun node id hregistry => h.registered node id (hsub node id hregistry)
  live := h.live
  refused := h.refused

theorem Inv.insertRegistry (h : s.Inv config file) (hsession : s.sessions.lookup id = some session)
    (hreceives : session.receives = true)
    (hreaches : ∀ cur, s.current = some cur → s.Reaches id session cur) :
    Inv config file { s with registry := s.registry.insert session.node id } where
  authority := h.authority
  known := ⟨h.known.current, h.known.broadcasts, h.known.publishes, h.known.caches⟩
  idle := h.idle
  ordered := h.ordered
  registered := fun node id' hregistry => by
    rcases Table.lookup_insert_cases hregistry with ⟨rfl, rfl⟩ | ⟨-, hregistry⟩
    · exact ⟨session, hsession, rfl, hreceives, hreaches⟩
    · exact h.registered node id' hregistry
  live := h.live
  refused := h.refused

/-- The node of a session that is not behind opened it. -/
theorem Inv.insertLive (h : s.Inv config file) (hsession : s.sessions.lookup id = some session)
    (hbehind : session.Behind config (s.caches session.node)) :
    Inv config file { s with live := s.live.insert session.node id } where
  authority := h.authority
  known := ⟨h.known.current, h.known.broadcasts, h.known.publishes, h.known.caches⟩
  idle := h.idle
  ordered := h.ordered
  registered := h.registered
  live := fun node id' hlive => by
    rcases Table.lookup_insert_cases hlive with ⟨rfl, rfl⟩ | ⟨-, hlive⟩
    · exact ⟨session, hsession, rfl, hbehind⟩
    · exact h.live node id' hlive
  refused := h.refused

theorem update_cases (caches : Node → AuthorizationCache) (cache : AuthorizationCache)
    (node other : Node) :
    (other = node ∧ Function.update caches node cache other = cache) ∨
      (other ≠ node ∧ Function.update caches node cache other = caches other) := by
  rcases eq_or_ne other node with rfl | hne
  · exact .inl ⟨rfl, Function.update_self _ _ _⟩
  · exact .inr ⟨hne, Function.update_of_ne hne _ _⟩

/-- A node takes a published snapshot. -/
theorem Inv.updateCache (h : s.Inv config file) {node : Node}
    (hlive : s.live.lookup node = some id) (hsession : s.sessions.lookup id = some session)
    (hknown : snapshot ∈ s.authority.published)
    (hbehind : session.Behind config (config.cacheOf snapshot)) :
    Inv config file { s with
      caches := Function.update s.caches node (config.cacheOf snapshot) } where
  authority := h.authority
  known := by
    refine ⟨h.known.current, h.known.broadcasts, h.known.publishes, fun other => ?_⟩
    rcases update_cases s.caches (config.cacheOf snapshot) node other with ⟨-, hcache⟩ | ⟨-, hcache⟩
    · exact .inr ⟨snapshot, hknown, hcache⟩
    · rcases h.known.caches other with hnew | ⟨older, holder, hof⟩
      · exact .inl (hcache.trans hnew)
      · exact .inr ⟨older, holder, hcache.trans hof⟩
  idle := h.idle
  ordered := h.ordered
  registered := h.registered
  live := fun other id' hother => by
    obtain ⟨found, hfound, hnode, hbehind'⟩ := h.live other id' hother
    refine ⟨found, hfound, hnode, ?_⟩
    show found.Behind config (Function.update s.caches node (config.cacheOf snapshot) other)
    rcases update_cases s.caches (config.cacheOf snapshot) node other with
      ⟨heq, hcache⟩ | ⟨-, hcache⟩
    · rw [heq] at hother
      have hid : id = id' := Option.some.inj (hlive.symm.trans hother)
      rw [← hid, hsession] at hfound
      rw [hcache, ← Option.some.inj hfound]
      exact hbehind
    · rw [hcache]
      exact hbehind'
  refused := h.refused

theorem Inv.reachable_authority (h : s.Inv config file) {action : AuthorizationServer.Action}
    {authority : AuthorizationServer.Sys}
    (hstep : s.authority.step config action = some authority) :
    (AuthorizationServer.machine config file).Reachable authority :=
  Machine.ReachableWhere.tail (a := action) h.authority trivial hstep

theorem Inv.load (h : s.Inv config file) {outcome : StoreOutcome}
    {authority : AuthorizationServer.Sys}
    (hstep : s.authority.step config (.load outcome) = some authority) :
    Inv config file { s with authority } := by
  have hnone : s.authority.server = none := by
    cases hserver : s.authority.server with
    | none => rfl
    | some server =>
      simp only [AuthorizationServer.Sys.step, AuthorizationServer.Sys.load, hserver] at hstep
      cases hstep
  have hempty : s.sessions = ∅ := h.idle hnone
  have hfree : ∀ id session, s.sessions.lookup id ≠ some session := by
    intro id session hsession
    rw [hempty] at hsession
    cases hsession
  have hstop : AuthorizationServer.Action.load outcome ≠ .stop := fun hstop => by cases hstop
  have hpublished : s.authority.published ⊆ authority.published ∧
      ∀ cur, authority.server.map (·.snapshot) = some cur → cur ∈ authority.published := by
    rcases AuthorizationServer.Sys.step_published hstop hstep with
      ⟨hserver, hpublished⟩ | ⟨server, hserver, hpublished⟩
    · rw [hserver, hnone, hpublished]
      exact ⟨List.Subset.refl _, fun cur hcur => by cases hcur⟩
    · rw [hserver, hpublished]
      refine ⟨List.subset_append_left _ _, fun cur hcur => ?_⟩
      rw [← Option.some.inj hcur]
      exact Log.mem_append_self
  obtain ⟨hsub, hcurrent⟩ := hpublished
  constructor
  · exact h.reachable_authority hstep
  · exact h.known.mono hsub hcurrent
  · exact fun _ => hempty
  · exact fun id session hsession => absurd hsession (hfree id session)
  · intro node id hregistry
    obtain ⟨session, hsession, -⟩ := h.registered node id hregistry
    exact absurd hsession (hfree id session)
  · exact h.live
  · exact h.refused

/-- The nodes keep what they remember. -/
theorem Inv.stop (h : s.Inv config file) {authority : AuthorizationServer.Sys}
    (hstep : s.authority.step config .stop = some authority) :
    Inv config file { authority, caches := s.caches, refused := s.refused } := by
  have hreachable := h.reachable_authority hstep
  obtain ⟨server, -, rfl⟩ := Option.map_eq_some_iff.mp hstep
  exact {
    authority := hreachable
    known := ⟨fun _ hcur => (by cases hcur), fun _ _ hb => (by cases hb),
      fun _ _ hp => (by cases hp), h.known.caches⟩
    idle := fun _ => rfl
    ordered := fun _ _ hsession => (by cases hsession)
    registered := fun _ _ hregistry => (by cases hregistry)
    live := fun _ _ hlive => (by cases hlive)
    refused := h.refused }

theorem Inv.same (h : s.Inv config file) {action : AuthorizationServer.Action}
    {authority : AuthorizationServer.Sys} (hstep : s.authority.step config action = some authority)
    (hserver : authority.server = s.authority.server)
    (hpublished : authority.published = s.authority.published) :
    Inv config file { s with authority } := by
  have hcurrent : current { s with authority } = s.current := by
    unfold current
    rw [hserver]
  constructor
  · exact h.reachable_authority hstep
  · refine h.known.mono (hpublished ▸ List.Subset.refl _) fun cur hcur => ?_
    rw [hserver] at hcur
    rw [hpublished]
    exact h.known.current cur hcur
  · intro hnone
    rw [hserver] at hnone
    exact h.idle hnone
  · intro id session hsession
    rw [hpublished]
    exact h.ordered id session hsession
  · intro node id hregistry
    rw [hcurrent]
    exact h.registered node id hregistry
  · exact h.live
  · exact h.refused

/-- A snapshot that was published begins to be broadcast. -/
theorem Inv.push (h : s.Inv config file) (hknown : snapshot ∈ s.authority.published) :
    Inv config file { s with broadcasts := s.broadcasts.push ⟨snapshot, false⟩ } := by
  constructor
  · exact h.authority
  · refine ⟨h.known.current, fun i broadcast hb => ?_, h.known.publishes, h.known.caches⟩
    rcases Slots.get_push_cases hb with ⟨-, rfl⟩ | ⟨-, hb⟩
    · exact hknown
    · exact h.known.broadcasts i broadcast hb
  · exact h.idle
  · exact h.ordered
  · intro node id hregistry
    obtain ⟨session, hsession, hnode, hreceives, hreaches⟩ := h.registered node id hregistry
    refine ⟨session, hsession, hnode, hreceives, fun cur hcur => ?_⟩
    rcases hreaches cur hcur with hdue | hsending | ⟨i, broadcast, hb, hof⟩
    · exact .inl hdue
    · exact .inr (.inl hsending)
    · exact .inr (.inr ⟨i, broadcast, Slots.get_push_of_some hb, hof⟩)
  · exact h.live
  · exact h.refused

/-- What the Server changes to begins to be broadcast. -/
theorem Inv.change (h : s.Inv config file) {action : AuthorizationServer.Action}
    {authority : AuthorizationServer.Sys} {server : ServerAuthorization}
    (hstep : s.authority.step config action = some authority)
    (hserver : authority.server = some server)
    (hpublished : authority.published = s.authority.published ++ [server.snapshot]) :
    Inv config file { s with
      authority
      broadcasts := s.broadcasts.push ⟨server.snapshot, false⟩ } := by
  have hsub : s.authority.published ⊆ authority.published := by
    rw [hpublished]
    exact List.subset_append_left _ _
  have hknown : server.snapshot ∈ authority.published := by
    rw [hpublished]
    exact Log.mem_append_self
  have hcurrent : ∀ cur, authority.server.map (·.snapshot) = some cur → server.snapshot = cur := by
    intro cur hcur
    rw [hserver] at hcur
    exact Option.some.inj hcur
  constructor
  · exact h.reachable_authority hstep
  · have hmono := h.known.mono hsub fun cur hcur => hcurrent cur hcur ▸ hknown
    refine ⟨hmono.current, fun i broadcast hb => ?_, hmono.publishes, hmono.caches⟩
    rcases Slots.get_push_cases hb with ⟨-, rfl⟩ | ⟨-, hb⟩
    · exact hknown
    · exact hmono.broadcasts i broadcast hb
  · intro hnone
    have hnone : authority.server = none := hnone
    rw [hserver] at hnone
    cases hnone
  · exact fun id session hsession => (h.ordered id session hsession).mono hsub
  · intro node id hregistry
    obtain ⟨session, hsession, hnode, hreceives, -⟩ := h.registered node id hregistry
    refine ⟨session, hsession, hnode, hreceives, fun cur hcur => .inr (.inr ?_)⟩
    refine ⟨s.broadcasts.next, ⟨server.snapshot, false⟩, ?_, hcurrent cur hcur, fun _ => rfl⟩
    show (s.broadcasts.push _).get s.broadcasts.next = _
    rw [Slots.get_push, if_pos rfl]
  · exact h.live
  · exact h.refused

theorem Reaches.imp (h : s.Reaches id session cur) (hnode : next.node = session.node)
    (hdue : session.Due cur → next.Due cur) : s.Reaches id next cur := by
  unfold Reaches at h ⊢
  rw [hnode]
  exact h.imp_left hdue

theorem mem_senders {kind : Kind} {node : Node} (hregistry : s.registry.lookup node = some id)
    (hkind : node.kind = kind) : id ∈ s.senders kind := by
  unfold senders
  rw [Table.mem_values]
  refine ⟨node, ?_⟩
  rw [Table.lookup_retain, hregistry, Option.filter_some, if_pos (decide_eq_true hkind)]

/-- The senders of one kind of node are collected. -/
theorem Inv.collect (h : s.Inv config file) {i : ℕ} {broadcast : Publishing} {kind : Kind}
    {after : Option Publishing} (hbroadcast : s.broadcasts.get i = some broadcast)
    (hafter : after = some { broadcast with relays := true } ∧ kind = .relay ∨
      after = none ∧ kind = .home ∧ broadcast.relays = true) :
    Inv config file { s with
      broadcasts := s.broadcasts.set i after
      publishes := s.spawn kind broadcast.snapshot } := by
  have hknown := h.known.broadcasts i broadcast hbroadcast
  constructor
  · exact h.authority
  · refine ⟨h.known.current, fun j other hj => ?_, fun j publish hj => ?_, h.known.caches⟩
    · rcases Slots.get_set_cases hj with ⟨-, hother, -⟩ | ⟨-, hj⟩
      · rcases hafter with ⟨rfl, -⟩ | ⟨rfl, -⟩
        · rw [← Option.some.inj hother]
          exact hknown
        · cases hother
      · exact h.known.broadcasts j other hj
    · rcases Slots.get_pushAll_cases hj with hm | hj
      · obtain ⟨id, -, rfl⟩ := List.mem_map.mp hm
        exact hknown
      · exact h.known.publishes j publish hj
  · exact h.idle
  · exact h.ordered
  · intro node id hregistry
    obtain ⟨session, hsession, hnode, hreceives, hreaches⟩ := h.registered node id hregistry
    refine ⟨session, hsession, hnode, hreceives, fun cur hcur => ?_⟩
    have hsent : broadcast.snapshot = cur → session.node.kind = kind →
        Sending { s with
          broadcasts := s.broadcasts.set i after
          publishes := s.spawn kind broadcast.snapshot } id cur := by
      rintro rfl hkind
      rw [hnode] at hkind
      exact Slots.exists_get_pushAll (List.mem_map_of_mem (mem_senders hregistry hkind))
    rcases hreaches cur hcur with hdue | ⟨j, hj⟩ | ⟨j, other, hj, hof, hrelays⟩
    · exact .inl hdue
    · exact .inr (.inl ⟨j, Slots.get_pushAll_of_some hj⟩)
    · by_cases hji : j = i
      · subst hji
        rw [hbroadcast] at hj
        obtain rfl := Option.some.inj hj
        rcases hafter with ⟨rfl, rfl⟩ | ⟨rfl, rfl, hcollected⟩
        · cases hkind : session.node.kind with
          | relay => exact .inr (.inl (hsent hof hkind))
          | home =>
            refine .inr (.inr ⟨j, _, Slots.get_set_self hbroadcast, hof, fun hrelay => ?_⟩)
            rw [hkind] at hrelay
            cases hrelay
        · cases hkind : session.node.kind with
          | home => exact .inr (.inl (hsent hof hkind))
          | relay =>
            rw [hrelays hkind] at hcollected
            cases hcollected
      · refine .inr (.inr ⟨j, other, ?_, hof, hrelays⟩)
        show (s.broadcasts.set i after).get j = some other
        rw [Slots.get_set_ne hji]
        exact hj
  · exact h.live
  · exact h.refused

/-- What is sent to a session that does not receive is lost. -/
theorem Inv.lose (h : s.Inv config file) {i : ℕ} {publish : Publish}
    (hpublish : s.publishes.get i = some publish)
    (hlost : ∀ session, s.sessions.lookup publish.session = some session →
      session.receives = false) :
    Inv config file { s with publishes := s.publishes.set i none } := by
  constructor
  · exact h.authority
  · refine ⟨h.known.current, h.known.broadcasts, fun j other hj => ?_, h.known.caches⟩
    rcases Slots.get_set_cases hj with ⟨-, hother, -⟩ | ⟨-, hj⟩
    · cases hother
    · exact h.known.publishes j other hj
  · exact h.idle
  · exact h.ordered
  · intro node id hregistry
    obtain ⟨session, hsession, hnode, hreceives, hreaches⟩ := h.registered node id hregistry
    refine ⟨session, hsession, hnode, hreceives, fun cur hcur => ?_⟩
    rcases hreaches cur hcur with hdue | ⟨j, hj⟩ | hcollecting
    · exact .inl hdue
    · refine .inr (.inl ⟨j, ?_⟩)
      show (s.publishes.set i none).get j = _
      have hji : j ≠ i := by
        rintro rfl
        rw [hpublish] at hj
        rw [Option.some.inj hj] at hlost
        rw [hlost session hsession] at hreceives
        cases hreceives
      rw [Slots.get_set_ne hji]
      exact hj
    · exact .inr (.inr hcollecting)
  · exact h.live
  · exact h.refused

theorem Inv.send (h : s.Inv config file) {i : ℕ} {publish : Publish}
    (hpublish : s.publishes.get i = some publish)
    (hsession : s.sessions.lookup publish.session = some session)
    (hend : session.AtEnd publish.snapshot) :
    Inv config file { s with
      publishes := s.publishes.set i none
      sessions := s.sessions.insert publish.session (session.enqueue publish.snapshot) } := by
  have hknown := h.known.publishes i publish hpublish
  have hordered := h.ordered publish.session session hsession
  refine h.update ?_ ?_ hsession rfl (hordered.enqueue hknown hend) ?_ fun cache hb => hb
  · intro j other hj
    rcases Slots.get_set_cases hj with ⟨-, hother, -⟩ | ⟨-, hj⟩
    · cases hother
    · exact hj
  · intro j other hj hne
    have hji : j ≠ i := by
      rintro rfl
      rw [hpublish] at hj
      rw [Option.some.inj hj] at hne
      exact hne rfl
    rw [Slots.get_set_ne hji]
    exact hj
  · intro _ hreceives
    refine ⟨hreceives, fun cur _ hreaches => ?_⟩
    rcases hreaches with (hstage | hstage | hwritten | hqueue) | ⟨j, hj⟩ | hcollecting
    · exact .inl (.inl hstage)
    · exact .inl (.inr (.inl hstage))
    · exact .inl (.inr (.inr (.inl hwritten)))
    · exact .inl (.inr (.inr (.inr (List.mem_append_left _ hqueue))))
    · by_cases hji : j = i
      · subst hji
        rw [hpublish] at hj
        have hcur : publish.snapshot = cur := congrArg Publish.snapshot (Option.some.inj hj)
        refine .inl (.inr (.inr (.inr ?_)))
        show cur ∈ session.queue ++ [publish.snapshot]
        rw [hcur]
        exact Log.mem_append_self
      · refine .inr (.inl ⟨j, ?_⟩)
        show (s.publishes.set i none).get j = _
        rw [Slots.get_set_ne hji]
        exact hj
    · exact .inr (.inr hcollecting)

/-- A node opens a session and is written the current snapshot. -/
theorem Inv.connect (h : s.Inv config file) {node : Node} (hfree : s.sessions.lookup id = none)
    (hcurrent : s.current = some snapshot) (hnext : next =
      { node := node
        initial := snapshot
        authorizationGeneration := snapshot.generation
        written := [snapshot]
        wire := [snapshot] }) :
    Inv config file { s.setSession id next with live := s.live.insert node id } := by
  have hknown := h.known.current snapshot hcurrent
  have hne : ∀ {id' other}, s.sessions.lookup id' = some other → id' ≠ id := by
    rintro id' other hother rfl
    rw [hfree] at hother
    cases hother
  have hkept : ∀ {id' other}, s.sessions.lookup id' = some other →
      (s.sessions.insert id next).lookup id' = some other := by
    intro id' other hother
    rw [AList.lookup_insert_ne (hne hother)]
    exact hother
  have hinv : Inv config file (s.setSession id next) := by
    constructor
    · exact h.authority
    · exact ⟨h.known.current, h.known.broadcasts, h.known.publishes, h.known.caches⟩
    · intro hnone
      have hnone : s.authority.server = none := hnone
      unfold current at hcurrent
      rw [hnone] at hcurrent
      cases hcurrent
    · intro id' other hother
      rcases Table.lookup_insert_cases hother with ⟨-, rfl⟩ | ⟨-, hother⟩
      · rw [hnext]
        have hwritten : ∀ earlier ∈ [snapshot], earlier = snapshot := fun earlier hearlier =>
          List.mem_singleton.mp hearlier
        constructor
        · intro earlier hearlier
          rw [hwritten earlier hearlier]
          exact hknown
        · exact fun _ hx => (by cases hx)
        · exact fun _ hstage => (by cases hstage)
        · exact List.mem_singleton_self snapshot
        · exact List.suffix_refl _
        · exact List.pairwise_singleton _ snapshot
        · exact fun _ => List.pairwise_singleton _ snapshot
        · intro _
          refine ⟨fun earlier hearlier => ?_, snapshot, List.mem_singleton_self snapshot, rfl⟩
          rw [hwritten earlier hearlier]
      · exact h.ordered id' other hother
    · intro node' id' hregistry
      obtain ⟨other, hother, hregistered⟩ := h.registered node' id' hregistry
      exact ⟨other, hkept hother, hregistered⟩
    · intro node' id' hlive
      obtain ⟨other, hother, hbehind⟩ := h.live node' id' hlive
      exact ⟨other, hkept hother, hbehind⟩
    · exact h.refused
  have hnode : next.node = node := by rw [hnext]
  have hbehind : next.Behind config (s.caches next.node) := by
    rcases h.known.caches next.node with hnew | ⟨older, holder, hof⟩
    · exact .inl hnew
    · have hle : older.generation ≤ snapshot.generation :=
        TravelAuthorizationSnapshot.generation_le_of_le (h.le_current hcurrent holder)
      refine .inr ⟨older, hof, fun x hx => ?_, snapshot, ?_, hle⟩
      · rw [hnext] at hx
        rw [List.mem_singleton.mp hx]
        exact hle
      · rw [hnext]
        exact List.mem_singleton_self snapshot
  rw [← hnode]
  exact hinv.insertLive (AList.lookup_insert _) hbehind

theorem Inv.register (h : s.Inv config file) (hsession : s.sessions.lookup id = some session)
    (hstage : session.stage = .greeted) :
    Inv config file { s.setSession id { session with stage := .registered } with
      registry := s.registry.insert session.node id } := by
  have hentered : Inv config file (s.setSession id { session with stage := .registered }) := by
    refine h.setSession hsession rfl ?_ ?_ fun cache hb => hb
    · exact (h.ordered id session hsession).enter _ fun _ hcatching => (by cases hcatching)
    · intro _ hreceives
      unfold Session.receives at hreceives
      rw [hstage] at hreceives
      cases hreceives
  have hregistered : (s.setSession id { session with stage := .registered }).sessions.lookup id =
      some { session with stage := .registered } := AList.lookup_insert _
  have hinserted := hentered.insertRegistry hregistered rfl fun cur _ => .inl (.inl rfl)
  exact hinserted

/-- A session looks for a later snapshot after its registration. -/
theorem Inv.read (h : s.Inv config file) {stage : Stage}
    (hsession : s.sessions.lookup id = some session) (hcurrent : s.current = some snapshot)
    (hafter : stage = .catching snapshot ∨
      stage = .running ∧ snapshot.generation = session.initial.generation) :
    (s.setSession id { session with stage }).Inv config file := by
  have hordered := h.ordered id session hsession
  have hknown := h.known.current snapshot hcurrent
  refine h.setSession hsession rfl (hordered.enter stage fun x hx => ?_) ?_ fun cache hb => hb
  · rcases hafter with rfl | ⟨rfl, -⟩
    · rw [← Stage.catching.inj hx]
      exact hknown
    · cases hx
  · intro _ _
    refine ⟨?_, fun cur hcur _ => .inl ?_⟩
    · unfold Session.receives
      rcases hafter with rfl | ⟨rfl, -⟩
      · rfl
      · rfl
    · have heq : snapshot = cur := by
        rw [hcurrent] at hcur
        exact Option.some.inj hcur
      rcases hafter with rfl | ⟨rfl, hsame⟩
      · rw [heq]
        exact .inr (.inl rfl)
      · have hinitial : session.initial = cur := by
          rw [heq] at hsame
          exact h.eq_current hcur (hordered.written _ hordered.initial) (by omega)
        refine .inr (.inr (.inl ?_))
        show cur ∈ session.written
        rw [← hinitial]
        exact hordered.initial

theorem Inv.catchUpHome (h : s.Inv config file) (hsession : s.sessions.lookup id = some session)
    (hstage : session.stage = .catching snapshot) (hend : session.AtEnd snapshot) :
    (s.setSession id ({ session with stage := .running }.enqueue snapshot)).Inv config file := by
  have hordered := h.ordered id session hsession
  have hrunning := hordered.enter .running fun _ hcatching => (by cases hcatching)
  have hknown := hordered.catching snapshot hstage
  refine h.setSession hsession rfl (hrunning.enqueue hknown hend) ?_ fun cache hb => hb
  intro _ _
  refine ⟨rfl, fun cur _ hreaches => hreaches.imp rfl fun hdue => ?_⟩
  rcases hdue with hregistered | hcatching | hwritten | hqueue
  · rw [hstage] at hregistered
    cases hregistered
  · rw [hstage] at hcatching
    rw [← Stage.catching.inj hcatching]
    exact .inr (.inr (.inr Log.mem_append_self))
  · exact .inr (.inr (.inl hwritten))
  · exact .inr (.inr (.inr (List.mem_append_left _ hqueue)))

/-- To a Relay the current snapshot is written unless it has been. -/
theorem Inv.mem_write (h : s.Inv config file) (hordered : session.Ordered s.authority.published)
    (hcur : s.current = some cur) : cur ∈ (session.write cur).written := by
  apply (session.mem_write cur).2
  cases hkind : session.node.kind with
  | home => exact .inr rfl
  | relay =>
    obtain ⟨-, last, hlast, heq⟩ := hordered.relay hkind
    have hle := h.le_current hcur (hordered.written last hlast)
    left
    rw [heq]
    exact TravelAuthorizationSnapshot.generation_le_of_le hle

theorem Inv.catchUpRelay (h : s.Inv config file) (hsession : s.sessions.lookup id = some session)
    (hstage : session.stage = .catching snapshot) (hkind : session.node.kind = .relay) :
    (s.setSession id ({ session with stage := .running }.write snapshot)).Inv config file := by
  have hordered := h.ordered id session hsession
  have hrunning := hordered.enter .running fun _ hcatching => (by cases hcatching)
  have hknown := hordered.catching snapshot hstage
  have hwrite := hrunning.write_relay hkind hknown
  obtain ⟨hnode, hstage', hqueue'⟩ :=
    Session.write_frame { session with stage := .running } snapshot
  refine h.setSession hsession hnode hwrite ?_ fun cache hb => ?_
  · intro _ _
    constructor
    · unfold Session.receives
      rw [hstage']
    · intro cur hcur hreaches
      refine hreaches.imp hnode fun hdue => ?_
      rcases hdue with hregistered | hcatching | hwritten | hqueue
      · rw [hstage] at hregistered
        cases hregistered
      · rw [hstage] at hcatching
        obtain rfl := Stage.catching.inj hcatching
        exact .inr (.inr (.inl (h.mem_write hrunning hcur)))
      · exact .inr (.inr (.inl ((Session.mem_write _ snapshot).1 cur hwritten)))
      · refine .inr (.inr (.inr ?_))
        rw [hqueue']
        exact hqueue
  · have hb : Session.Behind { session with stage := .running } config cache := hb
    exact hb.write hwrite.rising

theorem Inv.write (h : s.Inv config file) {queue : List TravelAuthorizationSnapshot}
    (hsession : s.sessions.lookup id = some session) (hqueue : session.queue = snapshot :: queue) :
    (s.setSession id ({ session with queue }.write snapshot)).Inv config file := by
  have hordered := h.ordered id session hsession
  have hwrite := hordered.write hqueue
  obtain ⟨hnode, hstage, hrest⟩ := Session.write_frame { session with queue } snapshot
  refine h.setSession hsession hnode hwrite ?_ fun cache hb => ?_
  · intro _ hreceives
    constructor
    · unfold Session.receives at hreceives ⊢
      rw [hstage]
      exact hreceives
    · intro cur hcur hreaches
      refine hreaches.imp hnode fun hdue => ?_
      rcases hdue with hregistered | hcatching | hwritten | hqueued
      · exact .inl (hstage.trans hregistered)
      · exact .inr (.inl (hstage.trans hcatching))
      · exact .inr (.inr (.inl ((Session.mem_write _ snapshot).1 cur hwritten)))
      · rw [hqueue] at hqueued
        rcases List.mem_cons.mp hqueued with rfl | hqueued
        · have hmem := h.mem_write hordered hcur
          refine .inr (.inr (.inl ?_))
          rw [Session.write_queue]
          exact hmem
        · refine .inr (.inr (.inr ?_))
          rw [hrest]
          exact hqueued
  · have hb : Session.Behind { session with queue } config cache := hb
    exact hb.write hwrite.rising

theorem Inv.close (h : s.Inv config file) {registry : Table Node Uuid}
    (hsession : s.sessions.lookup id = some session)
    (hregistry : ∀ node id', registry.lookup node = some id' →
      s.registry.lookup node = some id' ∧ (node = session.node → id' ≠ id)) :
    Inv config file { s with
      registry
      sessions := s.sessions.insert id { session with stage := .ended, queue := [] } } := by
  have hremoved := h.unregister fun node id' hl => (hregistry node id' hl).1
  have hordered := (h.ordered id session hsession).clear .ended fun _ hcatching =>
    (by cases hcatching)
  refine hremoved.setSession hsession rfl hordered ?_ fun cache hb => hb
  intro hl
  exact absurd rfl ((hregistry session.node id hl).2 rfl)

/-- The next snapshot of the live session of a node is accepted. -/
theorem Inv.follow (h : s.Inv config file) {wire : List TravelAuthorizationSnapshot}
    (hsession : s.sessions.lookup id = some session)
    (hlive : s.live.lookup session.node = some id) (hwire : session.wire = snapshot :: wire) :
    follow config (s.caches session.node) snapshot = some (config.cacheOf snapshot) := by
  have hordered := h.ordered id session hsession
  have hmem : snapshot ∈ session.wire := by
    rw [hwire]
    exact List.mem_cons_self
  have hknown := hordered.written snapshot (hordered.wire.subset hmem)
  obtain ⟨hkept, -⟩ := AuthorizationServer.Sys.sound_of_reachable h.authority
  obtain ⟨server, hsound, rfl⟩ := hkept.published snapshot hknown
  apply follow_of_sound hsound
  obtain ⟨found, hfound, -, hbehind⟩ := h.live session.node id hlive
  rw [hsession] at hfound
  obtain rfl := Option.some.inj hfound
  rcases hbehind with hnew | ⟨older, hof, hahead, -⟩
  · exact .inl hnew
  · rcases h.known.caches session.node with hnew | ⟨older', holder, hof'⟩
    · exact .inl hnew
    · have hcache := hof'.symm.trans hof
      have hsame : older'.generation = older.generation :=
        congrArg AuthorizationCache.generation hcache
      refine .inr ⟨older', hof', h.le holder hknown ?_⟩
      rw [hsame]
      exact hahead _ hmem

theorem Inv.deliver (h : s.Inv config file) {wire : List TravelAuthorizationSnapshot}
    (hsession : s.sessions.lookup id = some session)
    (hlive : s.live.lookup session.node = some id) (hwire : session.wire = snapshot :: wire) :
    Inv config file { s.setSession id { session with wire } with
      caches := Function.update s.caches session.node (config.cacheOf snapshot) } := by
  have hordered := h.ordered id session hsession
  have hsuffix : snapshot :: wire <:+ session.written := by
    rw [← hwire]
    exact hordered.wire
  have hmem : snapshot ∈ session.written := hsuffix.subset List.mem_cons_self
  have hread : Inv config file (s.setSession id { session with wire }) := by
    refine h.setSession hsession rfl (hordered.receive hwire) ?_ fun cache hb => ?_
    · exact fun _ hreceives => ⟨hreceives, fun _ _ hreaches => hreaches⟩
    · rcases hb with hnew | ⟨older, hof, hahead, hlast⟩
      · exact .inl hnew
      · refine .inr ⟨older, hof, fun x hx => hahead x ?_, hlast⟩
        rw [hwire]
        exact List.mem_cons_of_mem _ hx
  have hahead : ∀ x ∈ wire, snapshot.generation ≤ x.generation := by
    have hrising := hordered.rising.sublist hsuffix.sublist
    exact (List.pairwise_cons.mp hrising).1
  have hfound : (s.setSession id { session with wire }).sessions.lookup id =
      some { session with wire } := AList.lookup_insert _
  exact hread.updateCache hlive hfound (hordered.written snapshot hmem)
    (.inr ⟨snapshot, rfl, hahead, snapshot, hmem, Nat.le_refl _⟩)

/-- Steps that queue for a Home what is not older than what it has been sent keep the invariant. -/
theorem Inv.step (h : s.Inv config file) (hok : s.inOrder a) (hs : s.step config a = some s') :
    s'.Inv config file := by
  cases step_moves hs with
  | load outcome authority hstep => exact h.load hstep
  | stop authority hstep => exact h.stop hstep
  | same action authority hstep hserver hpublished => exact h.same hstep hserver hpublished
  | change action authority server hstop hstep hserver hpublished =>
    exact h.change hstep hserver hpublished
  | rebroadcast snapshot hcurrent => exact h.push (h.known.current snapshot hcurrent)
  | collect a i broadcast kind after hbroadcast hafter => exact h.collect hbroadcast hafter
  | lose i publish hpublish hlost => exact h.lose hpublish hlost
  | send i publish session hpublish hsession hreceives =>
    exact h.send hpublish hsession (hok publish hpublish session hsession)
  | connect id node snapshot hfree hcurrent => exact h.connect hfree hcurrent rfl
  | register id session hsession hstage => exact h.register hsession hstage
  | read id session snapshot stage hsession hcurrent hstage hafter =>
    exact h.read hsession hcurrent hafter
  | catchUpHome id session snapshot hsession hstage hkind =>
    have hsnapshot : snapshot ∈ session.stage.snapshot := by
      rw [hstage]
      rfl
    exact h.catchUpHome hsession hstage (hok session hsession snapshot hsnapshot)
  | catchUpRelay id session snapshot hsession hstage hkind =>
    exact h.catchUpRelay hsession hstage hkind
  | write id session snapshot queue hsession hqueue => exact h.write hsession hqueue
  | close id session registry hsession hregistry => exact h.close hsession hregistry
  | deliver id session snapshot wire cache hsession hlive hwire hfollow =>
    rw [h.follow hsession hlive hwire] at hfollow
    rw [← Option.some.inj hfollow]
    exact h.deliver hsession hlive hwire
  | refuse id session snapshot wire t hsession hlive hwire hfollow =>
    rw [h.follow hsession hlive hwire] at hfollow
    cases hfollow

theorem inv_of_inOrder (h : (machine config file).ReachableWhere inOrder s) :
    s.Inv config file := by
  refine h.invariant ?_ fun t a t' _ hinv hok hs => hinv.step hok hs
  exact {
    authority := .refl
    known := ⟨fun _ hcur => (by cases hcur), fun _ _ hb => (by cases hb),
      fun _ _ hp => (by cases hp), fun _ => .inl rfl⟩
    idle := fun _ => rfl
    ordered := fun _ _ hsession => (by cases hsession)
    registered := fun _ _ hregistry => (by cases hregistry)
    live := fun _ _ hlive => (by cases hlive)
    refused := rfl }

/-- Where nothing is going on, a registered session has written the current snapshot last. -/
theorem Inv.latest (h : s.Inv config file) (hquiet : s.Quiet) {node : Node}
    (hregistry : s.registry.lookup node = some id) :
    ∃ session, s.sessions.lookup id = some session ∧ session.written.getLast? = s.current := by
  obtain ⟨session, hsession, -, hreceives, hreaches⟩ := h.registered node id hregistry
  obtain ⟨cur, hcur⟩ := h.exists_current hsession
  have hordered := h.ordered id session hsession
  refine ⟨session, hsession, ?_⟩
  rcases hquiet.2.2 id session hsession with hended | ⟨hrunning, hqueue⟩
  · unfold Session.receives at hreceives
    rw [hended] at hreceives
    cases hreceives
  · have hwritten : cur ∈ session.written := by
      rcases hreaches cur hcur with (hstage | hstage | hwritten | hqueued) | ⟨i, hi⟩ | ⟨i, b, hi, -⟩
      · rw [hrunning] at hstage
        cases hstage
      · rw [hrunning] at hstage
        cases hstage
      · exact hwritten
      · rw [hqueue] at hqueued
        cases hqueued
      · rw [hquiet.2.1.get_eq_none i] at hi
        cases hi
      · rw [hquiet.1.get_eq_none i] at hi
        cases hi
    cases hlast : session.written.getLast? with
    | none =>
      rw [List.getLast?_eq_none_iff.mp hlast] at hwritten
      cases hwritten
    | some last =>
      have hknown := hordered.written last (List.mem_of_getLast? hlast)
      have hle : cur.generation ≤ last.generation := by
        rcases Log.rel_of_getLast? hordered.rising hlast hwritten with hle | heq
        · exact hle
        · rw [heq]
      rw [hcur, h.eq_current hcur hknown hle]

/-- Where a snapshot is queued for a Home while nothing of a later change has been, every connection
is written rising generations and ends with the current one, and its node accepts them. -/
theorem current_of_inOrder (h : (machine config file).ReachableWhere inOrder s) : s.Current where
  rising := fun id session hsession => ((inv_of_inOrder h).ordered id session hsession).rising
  latest := fun hquiet _ _ hregistry => (inv_of_inOrder h).latest hquiet hregistry
  accepted := (inv_of_inOrder h).refused

/-- Two changes are broadcast to a Home and to a Relay, which catches up between them. -/
theorem current_of_inOrder_overlapping :
    ∃ s, (machine sampleServer { state := {} }).execWhere inOrder
      [.load .stored, .connect 1 sampleHomeNode, .connect 2 sampleRelayNode, .deliver 1,
        .deliver 2, .register 1, .register 2, .read 1,
        .change (.importCredential sampleSignedCredential "home-1" .stored), .read 2,
        .change (.revokeFromHome 1 "lost" "home-1" 1000 .stored), .collectRelays 1,
        .collectRelays 0, .collectHomes 0, .collectHomes 1, .send 2, .send 0, .catchUp 2, .send 1,
        .send 3, .write 1, .write 1, .write 2, .write 2, .deliver 1, .deliver 1, .deliver 2] =
      some s ∧
    s.writtenTo 1 = [1, 2, 3] ∧ s.writtenTo 2 = [1, 2, 3] ∧ s.broadcasts.Idle ∧
    s.publishes.Idle ∧ s.Current := by
  have hrun : ((machine sampleServer { state := {} }).execWhere inOrder
      [.load .stored, .connect 1 sampleHomeNode, .connect 2 sampleRelayNode, .deliver 1,
        .deliver 2, .register 1, .register 2, .read 1,
        .change (.importCredential sampleSignedCredential "home-1" .stored), .read 2,
        .change (.revokeFromHome 1 "lost" "home-1" 1000 .stored), .collectRelays 1,
        .collectRelays 0, .collectHomes 0, .collectHomes 1, .send 2, .send 0, .catchUp 2, .send 1,
        .send 3, .write 1, .write 1, .write 2, .write 2, .deliver 1, .deliver 1, .deliver 2]).map
      (fun s => (s.writtenTo 1, s.writtenTo 2, decide s.broadcasts.Idle, decide s.publishes.Idle)) =
        some ([1, 2, 3], [1, 2, 3], true, true) := by
    decide +kernel
  obtain ⟨s, hs, heq⟩ := Option.map_eq_some_iff.mp hrun
  obtain ⟨hhome, hrelay, hbroadcasts, hpublishes⟩ : _ ∧ _ ∧ _ ∧ _ := by
    simpa only [Prod.mk.injEq] using heq
  have hcurrent := current_of_inOrder (Machine.reachableWhere_of_execWhere hs)
  exact ⟨s, hs, hhome, hrelay, of_decide_eq_true hbroadcasts, of_decide_eq_true hpublishes,
    hcurrent⟩

/-- The broadcast of a revocation overtakes that of the import before it: the Home is written the
later snapshot first, and closes its session at the earlier one. -/
theorem not_current_of_reachable :
    ∃ s, (machine sampleServer { state := {} }).Reachable s ∧
      s.writtenTo 1 = [1, 3, 2] ∧ s.refused = [1] ∧ ¬ s.Current := by
  have hrun : ((machine sampleServer { state := {} }).exec
      [.load .stored, .connect 1 sampleHomeNode, .deliver 1, .register 1, .read 1,
        .change (.importCredential sampleSignedCredential "home-1" .stored),
        .change (.revokeFromHome 1 "lost" "home-1" 1000 .stored), .collectRelays 0,
        .collectHomes 0, .collectRelays 1, .collectHomes 1, .send 1, .send 0, .write 1, .write 1,
        .deliver 1, .deliver 1]).map (fun s => (s.writtenTo 1, s.refused)) =
        some ([1, 3, 2], [1]) := by
    decide +kernel
  obtain ⟨s, hs, heq⟩ := Option.map_eq_some_iff.mp hrun
  obtain ⟨hwritten, hrefused⟩ : _ ∧ _ := by simpa only [Prod.mk.injEq] using heq
  refine ⟨s, Machine.reachable_of_exec hs, hwritten, hrefused, fun hcurrent => ?_⟩
  have haccepted := hcurrent.accepted
  rw [hrefused] at haccepted
  cases haccepted

end Sys

end FlowSplice.Server.Broadcast
