import FlowSplice.Authorization.CacheFile

/-! What processes have taken from the authorization cache is not forgotten: neither by them, nor
by the file, whatever fails and whenever the machine stops. -/
namespace FlowSplice

/-- A later cache is not of an older generation, and revokes no less. -/
def AuthorizationCache.Precedes (older newer : AuthorizationCache) : Prop :=
  older.generation ≤ newer.generation ∧ older.revokedCredentials ⊆ newer.revokedCredentials

theorem AuthorizationCache.Precedes.refl (cache : AuthorizationCache) : cache.Precedes cache :=
  ⟨le_rfl, subset_rfl⟩

theorem AuthorizationCache.Precedes.trans {a b c : AuthorizationCache} (hab : a.Precedes b)
    (hbc : b.Precedes c) : a.Precedes c :=
  ⟨hab.1.trans hbc.1, hab.2.trans hbc.2⟩

theorem AuthorizationCache.precedes_of_accept {cache proposed : AuthorizationCache}
    {authorization : VerifiedAuthorization} (h : cache.accept authorization = some proposed) :
    cache.Precedes proposed := by
  obtain ⟨rfl, hgeneration, hrevoked⟩ := AuthorizationCache.accept_eq_some h
  exact ⟨hgeneration, hrevoked⟩

namespace CacheFile
open AuthorizationCache (Precedes)

variable {follower : Follower} {entries : Entries} {s s' : Sys} {a : Action} {pid : ℕ}
  {proc proc' : Proc} {c : Change Name File} {cache proposed : AuthorizationCache} {id : Uuid}

theorem load_eq_some : loadInitializedAuthorizationCache entries = some cache ↔
    entries .cache = some (.cache cache) := by
  unfold loadInitializedAuthorizationCache
  constructor
  · intro h
    split at h
    · rename_i held hheld
      rw [hheld, Option.some.inj h]
    · cases h
  · intro h
    rw [h]

/-- The file holds a cache that everything taken precedes. -/
def Covers (taken : List AuthorizationCache) (entries : Entries) : Prop :=
  ∀ cache ∈ taken, ∃ held, entries .cache = some (.cache held) ∧ cache.Precedes held

/-- A process has the state store, or is the one that may take it next. -/
def Proc.opens : Proc → Bool
  | .serving _ _ | .starting none => true
  | _ => false

/-- The temporary file of an initialization. -/
def Proc.drew (id : Uuid) : Proc → Prop
  | .initializing own _ => own = id
  | _ => False

/-- What a process relies on of the entries. -/
def Proc.Sound (taken : List AuthorizationCache) (entries : Entries) : Proc → Prop
  | .initializing id .linking => entries (.initial id) = some (.cache {})
  | .serving cache storing => taken.getLast? = some cache ∧ match storing with
    | some (.creating _ proposed) => cache.Precedes proposed
    | some (.replacing id proposed) =>
      cache.Precedes proposed ∧ entries (.temporary id) = some (.cache proposed)
    | some (.syncing _ proposed) =>
      cache.Precedes proposed ∧ entries .cache = some (.cache proposed)
    | _ => True
  | _ => True

/-- A process goes on relying on entries that differ in nothing it relies on. -/
theorem Proc.Sound.frame {taken taken' : List AuthorizationCache} {e e' : Entries}
    (h : proc.Sound taken e) (hinitial : ∀ id, proc.drew id → e' (.initial id) = e (.initial id))
    (hserving : ∀ cache storing, proc = .serving cache storing → taken' = taken ∧
      e' .cache = e .cache ∧ ∀ id, e' (.temporary id) = e (.temporary id)) :
    proc.Sound taken' e' := by
  cases proc with
  | initializing id phase =>
    cases phase with
    | linking =>
      show e' (.initial id) = _
      rw [hinitial id rfl]
      exact h
    | _ => trivial
  | starting loaded => trivial
  | serving cache storing =>
    obtain ⟨htaken, hcache, htemporary⟩ := hserving cache storing rfl
    obtain ⟨hlast, hstoring⟩ := h
    rw [← htaken] at hlast
    refine ⟨hlast, ?_⟩
    cases storing with
    | none => trivial
    | some storing =>
      cases storing with
      | replacing id proposed =>
        exact ⟨hstoring.1, (htemporary id).trans hstoring.2⟩
      | syncing id proposed =>
        exact ⟨hstoring.1, hcache.trans hstoring.2⟩
      | _ => exact hstoring

namespace Sys

/-- What a Relay that starts has loaded. -/
def loaded (s : Sys) (pid : ℕ) : Option AuthorizationCache :=
  match s.procs.lookup pid with
  | some (.starting loaded) => loaded
  | _ => none

/-- A process starts to serve on what is on the disk. -/
def onDisk (s : Sys) : Action → Prop
  | .enter _ => ∀ c ∈ s.dir.pending, c.touches (· == Name.cache) = false
  | _ => True

/-- A Relay starts to serve on what its file still says. -/
def unchanged (s : Sys) : Action → Prop
  | .enter pid => ∀ cache ∈ s.loaded pid,
      loadInitializedAuthorizationCache s.dir.current = some cache
  | _ => True

instance (s : Sys) (action : Action) : Decidable (s.onDisk action) :=
  match action with
  | .enter _ => inferInstanceAs (Decidable (∀ _ ∈ _, _))
  | .create _ _ | .start _ | .receive _ _ _ | .go _ | .fail _ _ | .kill _ | .crash _ =>
    inferInstanceAs (Decidable True)

instance (s : Sys) (action : Action) : Decidable (s.unchanged action) :=
  match action with
  | .enter _ => inferInstanceAs (Decidable (∀ _ ∈ _, _))
  | .create _ _ | .start _ | .receive _ _ _ | .go _ | .fail _ _ | .kill _ | .crash _ =>
    inferInstanceAs (Decidable True)

def settled (s : Sys) (action : Action) : Prop := s.onDisk action ∧ s.unchanged action

instance (s : Sys) (action : Action) : Decidable (s.settled action) :=
  inferInstanceAs (Decidable (_ ∧ _))

/-- What the processes have taken only advances, and after any crash the file holds no less. The
file is invalid only if it was from the start. One process serves, with what was taken last. -/
structure Remembers (entries : Entries) (s : Sys) : Prop where
  rising : s.taken.Pairwise Precedes
  crash : ∀ keep, ∀ cache ∈ s.taken, ∃ held,
    loadInitializedAuthorizationCache (s.dir.crash keep).durable = some held ∧ cache.Precedes held
  whole : ∀ keep, (s.dir.crash keep).durable .cache = some .invalid ↔
    entries .cache = some .invalid
  serving : ∀ pid cache storing, s.procs.lookup pid = some (.serving cache storing) →
    s.opened = some pid ∧ s.taken.getLast? = some cache

/-- No name has changes that are kept only in order. -/
def unordered : Name → Bool := fun _ => false

theorem ordered (dir : Directory Name File) (keep : List Bool) : dir.Ordered unordered keep := by
  unfold Directory.Ordered
  apply List.pairwise_of_forall
  intro before after _ htouches
  cases hc : after.1 <;> rw [hc] at htouches <;> cases htouches

/-- What holds of the disk after any crash. -/
structure Disk (entries : Entries) (taken : List AuthorizationCache) (dir : Directory Name File) :
    Prop where
  rising : taken.Pairwise Precedes
  covers : dir.Safe unordered (Covers taken)
  whole : dir.Safe unordered fun e => e .cache = some .invalid ↔ entries .cache = some .invalid

structure Inv (entries : Entries) (s : Sys) : Prop where
  disk : Disk entries s.taken s.dir
  sound : ∀ pid proc, s.procs.lookup pid = some proc → proc.Sound s.taken s.dir.current
  opened : ∀ pid proc, s.procs.lookup pid = some proc → proc.opens = true → s.opened = some pid
  drawn : ∀ pid proc id, s.procs.lookup pid = some proc → proc.drew id → id ∈ s.drawn
  apart : ∀ pid pid' proc proc' id, s.procs.lookup pid = some proc →
    s.procs.lookup pid' = some proc' → proc.drew id → proc'.drew id → pid = pid'

namespace Disk
variable {taken : List AuthorizationCache} {dir : Directory Name File}

theorem changeOther (h : Disk entries taken dir) (hc : c.touches (· == Name.cache) = false) :
    Disk entries taken (dir.change c) where
  rising := h.rising
  covers := by
    apply h.covers.change
    intro e he cache hcache
    rw [Change.apply_of_not_touches hc]
    exact he cache hcache
  whole := by
    apply h.whole.change
    intro e he
    rw [Change.apply_of_not_touches hc]
    exact he

theorem sync (h : Disk entries taken dir) : Disk entries taken dir.sync where
  rising := h.rising
  covers := Directory.safe_sync h.covers.current
  whole := Directory.safe_sync h.whole.current

theorem crash (h : Disk entries taken dir) (keep : List Bool) :
    Disk entries taken (dir.crash keep) where
  rising := h.rising
  covers := Directory.safe_crash h.covers (ordered dir keep)
  whole := Directory.safe_crash h.whole (ordered dir keep)

theorem eq_nil (h : Disk entries taken dir) (hnone : dir.current .cache = none) : taken = [] := by
  apply List.eq_nil_iff_forall_not_mem.mpr
  intro cache hcache
  obtain ⟨held, hheld, -⟩ := h.covers.current cache hcache
  rw [hnone] at hheld
  cases hheld

/-- A cache file is linked only where there is none, so nothing was taken. -/
theorem link (h : Disk entries taken dir) (hnone : dir.current .cache = none) :
    Disk entries taken (dir.change (.link .cache (.cache cache))) where
  rising := h.rising
  covers := by
    intro keep _ cache hcache
    rw [h.eq_nil hnone] at hcache
    cases hcache
  whole := by
    apply h.whole.change
    intro e _
    have hvalid : ¬ entries .cache = some .invalid := by
      intro hinvalid
      have hcurrent := h.whole.current.mpr hinvalid
      rw [hnone] at hcurrent
      cases hcurrent
    rw [Change.apply_link_self]
    constructor
    · intro hfile
      cases hfile
    · intro hinvalid
      exact absurd hinvalid hvalid

/-- The file is replaced by one that everything taken precedes. -/
theorem rename (h : Disk entries taken dir) (hcurrent : dir.current .cache = some (.cache cache))
    (hall : ∀ older ∈ taken, older.Precedes proposed) :
    Disk entries taken (dir.change (.rename (.temporary id) .cache (.cache proposed))) where
  rising := h.rising
  covers := by
    apply h.covers.change
    intro e _ older holder
    exact ⟨proposed, Change.apply_rename_target .., hall older holder⟩
  whole := by
    apply h.whole.change
    intro e _
    have hvalid : ¬ entries .cache = some .invalid := by
      intro hinvalid
      have hcurrent' := h.whole.current.mpr hinvalid
      rw [hcurrent] at hcurrent'
      cases hcurrent'
    rw [Change.apply_rename_target]
    constructor
    · intro hfile
      cases hfile
    · intro hinvalid
      exact absurd hinvalid hvalid

theorem take (h : Disk entries taken dir) (hall : ∀ older ∈ taken, older.Precedes cache)
    (hheld : dir.Safe unordered (Covers [cache])) : Disk entries (taken ++ [cache]) dir where
  rising := Log.pairwise_append h.rising hall
  covers := by
    intro keep hkeep newest hnewest
    rcases List.mem_append.mp hnewest with hold | hnew
    · exact h.covers keep hkeep newest hold
    · exact hheld keep hkeep newest hnew
  whole := h.whole

/-- What was taken last is the newest. -/
theorem precedes_last (h : Disk entries taken dir) (hlast : taken.getLast? = some cache) :
    ∀ older ∈ taken, older.Precedes cache := by
  intro older holder
  rcases Log.rel_of_getLast? h.rising hlast holder with hle | rfl
  · exact hle
  · exact Precedes.refl older

end Disk

namespace Inv

theorem initial : Inv entries (machine follower entries).start where
  disk := {
    rising := by
      show (loadInitializedAuthorizationCache entries).toList.Pairwise Precedes
      cases loadInitializedAuthorizationCache entries with
      | none => exact .nil
      | some cache => exact List.pairwise_singleton _ _
    covers := by
      intro keep _ cache hcache
      have hload := load_eq_some.mp (Option.mem_toList.mp hcache)
      exact ⟨cache, hload, Precedes.refl cache⟩
    whole := fun _ _ => Iff.rfl }
  sound _ _ h := by cases h
  opened _ _ h := by cases h
  drawn _ _ _ h := by cases h
  apart _ _ _ _ _ h := by cases h

/-- One process goes on, and what the others rely on stays. -/
theorem update (hi : Inv entries s) {dir : Directory Name File} {drawn : List Uuid}
    {taken : List AuthorizationCache} (hpid : s.procs.lookup pid = some proc)
    (hdrawn : ∀ id ∈ s.drawn, id ∈ drawn) (hdisk : Disk entries taken dir)
    (hsound : proc'.Sound taken dir.current)
    (hothers : ∀ other p, other ≠ pid → s.procs.lookup other = some p → p.Sound taken dir.current)
    (hopens : proc'.opens = true → proc.opens = true)
    (hdrew : ∀ id, proc'.drew id → proc.drew id) :
    Inv entries ⟨dir, s.procs.insert pid proc', s.opened, drawn, taken⟩ where
  disk := hdisk
  sound other p h := by
    rcases Table.lookup_insert_cases h with ⟨rfl, rfl⟩ | ⟨hne, h⟩
    · exact hsound
    · exact hothers other p hne h
  opened other p h hp := by
    rcases Table.lookup_insert_cases h with ⟨rfl, rfl⟩ | ⟨-, h⟩
    · exact hi.opened _ _ hpid (hopens hp)
    · exact hi.opened _ _ h hp
  drawn other p id h hp := by
    apply hdrawn
    rcases Table.lookup_insert_cases h with ⟨rfl, rfl⟩ | ⟨-, h⟩
    · exact hi.drawn _ _ id hpid (hdrew id hp)
    · exact hi.drawn _ _ id h hp
  apart first second p q id hfirst hsecond hp hq := by
    rcases Table.lookup_insert_cases hfirst with ⟨rfl, rfl⟩ | ⟨-, hold⟩ <;>
      rcases Table.lookup_insert_cases hsecond with ⟨rfl, rfl⟩ | ⟨-, hold'⟩
    · rfl
    · exact hi.apart _ _ _ _ id hpid hold' (hdrew id hp) hq
    · exact hi.apart _ _ _ _ id hold hpid hp (hdrew id hq)
    · exact hi.apart _ _ _ _ id hold hold' hp hq

theorem setProc (hi : Inv entries s) (hpid : s.procs.lookup pid = some proc)
    (hsound : proc'.Sound s.taken s.dir.current) (hopens : proc'.opens = true → proc.opens = true)
    (hdrew : ∀ id, proc'.drew id → proc.drew id) : Inv entries (s.setProc pid proc') :=
  hi.update hpid (fun _ h => h) hi.disk hsound (fun other p _ h => hi.sound other p h) hopens hdrew

/-- A process ends. -/
theorem exit (hi : Inv entries s) : Inv entries (s.exit pid) where
  disk := hi.disk
  sound other p h := hi.sound other p (Table.lookup_erase_cases h).2
  opened other p h hp := by
    obtain ⟨hne, h⟩ := Table.lookup_erase_cases h
    have hopened := hi.opened other p h hp
    show s.opened.filter (· != pid) = some other
    rw [hopened, Option.filter_some]
    simp [hne]
  drawn other p id h := hi.drawn other p id (Table.lookup_erase_cases h).2
  apart first second p q id hfirst hsecond :=
    hi.apart first second p q id (Table.lookup_erase_cases hfirst).2
      (Table.lookup_erase_cases hsecond).2

theorem sync (hi : Inv entries s) (hpid : s.procs.lookup pid = some proc)
    (hsound : proc'.Sound s.taken s.dir.current) (hopens : proc'.opens = true → proc.opens = true)
    (hdrew : ∀ id, proc'.drew id → proc.drew id) : Inv entries (s.sync pid proc') :=
  hi.update hpid (fun _ h => h) hi.disk.sync hsound (fun other p _ h => hi.sound other p h)
    hopens hdrew

/-- An initialization changes its own temporary file. -/
theorem changeInitial (hi : Inv entries s) {phase phase' : Initializing}
    (hpid : s.procs.lookup pid = some (.initializing id phase))
    (hc : ∀ name, name ≠ .initial id → c.touches (· == name) = false)
    (hsound : Proc.Sound s.taken (c.apply s.dir.current) (.initializing id phase')) :
    Inv entries (s.change pid c (.initializing id phase')) := by
  have hsame : ∀ name, name ≠ .initial id → (s.dir.change c).current name = s.dir.current name := by
    intro name hname
    rw [Directory.current_change]
    exact Change.apply_of_not_touches (hc name hname)
  rw [← Directory.current_change] at hsound
  apply hi.update hpid (fun _ h => h) (hi.disk.changeOther (hc _ (by simp))) hsound _
    (fun h => by cases h) (fun _ h => h)
  intro other p hne h
  apply Proc.Sound.frame (hi.sound other p h)
  · intro id' hp
    apply hsame
    intro heq
    obtain rfl : id' = id := Name.initial.inj heq
    exact hne (hi.apart _ _ _ _ id' h hpid hp rfl)
  · intro _ _ _
    exact ⟨rfl, hsame _ (by simp), fun _ => hsame _ (by simp)⟩

/-- The process with the state store is the only one. -/
theorem alone (hi : Inv entries s) (hpid : s.procs.lookup pid = some proc)
    (hproc : proc.opens = true) {other : ℕ} {p : Proc} (hne : other ≠ pid)
    (h : s.procs.lookup other = some p) : p.opens = false := by
  cases hp : p.opens with
  | false => rfl
  | true =>
    have hother := hi.opened other p h hp
    have hself := hi.opened pid proc hpid hproc
    rw [hother] at hself
    exact absurd (Option.some.inj hself) hne

/-- The serving process changes what no initialization relies on. -/
theorem changeServing (hi : Inv entries s) {storing storing' : Option Storing}
    (hpid : s.procs.lookup pid = some (.serving cache storing))
    (hc : ∀ id, c.touches (· == Name.initial id) = false)
    (hdisk : Disk entries s.taken (s.dir.change c))
    (hsound : Proc.Sound s.taken (c.apply s.dir.current) (.serving cache storing')) :
    Inv entries (s.change pid c (.serving cache storing')) := by
  have hopens : (Proc.serving cache storing').opens = true →
      (Proc.serving cache storing).opens = true := fun _ => rfl
  apply hi.update hpid (fun _ h => h) hdisk _ _ hopens (fun _ h => h)
  · show Proc.Sound s.taken (s.dir.change c).current _
    rw [Directory.current_change]
    exact hsound
  · intro other p hne h
    have halone := hi.alone hpid rfl hne h
    apply Proc.Sound.frame (hi.sound other p h)
    · intro id _
      show (s.dir.change c).current _ = _
      rw [Directory.current_change]
      exact Change.apply_of_not_touches (hc id)
    · intro held storing'' hp
      rw [hp] at halone
      cases halone

/-- An initialization links the file, which no process has taken anything from yet. -/
theorem link (hi : Inv entries s) {phase : Initializing}
    (hpid : s.procs.lookup pid = some (.initializing id phase))
    (hnone : s.dir.current .cache = none) :
    Inv entries (s.change pid (.link .cache (.cache {})) (.initializing id .syncing)) := by
  have hcurrent : ∀ id, (s.dir.change (.link .cache (.cache {}))).current (.initial id) =
      s.dir.current (.initial id) := by
    intro id
    rw [Directory.current_change]
    exact Change.apply_link_ne (by simp)
  have hsound : Proc.Sound s.taken (s.dir.change (.link .cache (.cache {}))).current
    (.initializing id .syncing) := trivial
  apply hi.update hpid (fun _ h => h) (hi.disk.link hnone) hsound _ (fun h => by cases h)
    (fun _ h => h)
  intro other p _ h
  apply Proc.Sound.frame (hi.sound other p h) fun id' _ => hcurrent id'
  rintro held storing rfl
  have hlast := (hi.sound other _ h).1
  rw [hi.disk.eq_nil hnone] at hlast
  cases hlast

/-- A process takes what the disk holds, and no other has the state store. -/
theorem take (hi : Inv entries s) {dir : Directory Name File}
    (hothers : ∀ other p, other ≠ pid → s.procs.lookup other = some p → p.opens = false)
    (hdisk : Disk entries (s.taken ++ [cache]) dir) (hcurrent : dir.current = s.dir.current) :
    Inv entries ⟨dir, s.procs.insert pid (.serving cache none), some pid, s.drawn,
      s.taken ++ [cache]⟩ where
  disk := hdisk
  sound other p h := by
    rcases Table.lookup_insert_cases h with ⟨rfl, rfl⟩ | ⟨hne, h⟩
    · exact ⟨Log.getLast?_append, trivial⟩
    · have halone := hothers other p hne h
      show p.Sound (s.taken ++ [cache]) dir.current
      rw [hcurrent]
      apply Proc.Sound.frame (hi.sound other p h) fun _ _ => rfl
      rintro held storing rfl
      cases halone
  opened other p h hp := by
    rcases Table.lookup_insert_cases h with ⟨rfl, rfl⟩ | ⟨hne, h⟩
    · rfl
    · rw [hothers other p hne h] at hp
      cases hp
  drawn other p id h hp := by
    rcases Table.lookup_insert_cases h with ⟨rfl, rfl⟩ | ⟨-, h⟩
    · cases hp
    · exact hi.drawn other p id h hp
  apart first second p q id hfirst hsecond hp hq := by
    rcases Table.lookup_insert_cases hfirst with ⟨rfl, rfl⟩ | ⟨-, hold⟩
    · cases hp
    rcases Table.lookup_insert_cases hsecond with ⟨rfl, rfl⟩ | ⟨-, hold'⟩
    · cases hq
    exact hi.apart first second p q id hold hold' hp hq

/-- A process starts. -/
theorem spawn (hi : Inv entries s) {opened : Option ℕ} {drawn : List Uuid}
    (hsound : proc.Sound s.taken s.dir.current) (hdrawn : ∀ id ∈ s.drawn, id ∈ drawn)
    (hdrew : ∀ id, proc.drew id → id ∉ s.drawn ∧ id ∈ drawn)
    (hopened : s.opened = none ∨ opened = s.opened)
    (hopens : proc.opens = true → opened = some pid) :
    Inv entries ⟨s.dir, s.procs.insert pid proc, opened, drawn, s.taken⟩ where
  disk := hi.disk
  sound other p h := by
    rcases Table.lookup_insert_cases h with ⟨rfl, rfl⟩ | ⟨-, h⟩
    · exact hsound
    · exact hi.sound other p h
  opened other p h hp := by
    rcases Table.lookup_insert_cases h with ⟨rfl, rfl⟩ | ⟨-, h⟩
    · exact hopens hp
    · have hother := hi.opened other p h hp
      rcases hopened with hnone | hsame
      · rw [hnone] at hother
        cases hother
      · exact hsame.trans hother
  drawn other p id h hp := by
    rcases Table.lookup_insert_cases h with ⟨rfl, rfl⟩ | ⟨-, h⟩
    · exact (hdrew id hp).2
    · exact hdrawn id (hi.drawn other p id h hp)
  apart first second p q id hfirst hsecond hp hq := by
    rcases Table.lookup_insert_cases hfirst with ⟨rfl, rfl⟩ | ⟨-, hold⟩ <;>
      rcases Table.lookup_insert_cases hsecond with ⟨rfl, rfl⟩ | ⟨-, hold'⟩
    · rfl
    · exact absurd (hi.drawn _ _ id hold' hq) (hdrew id hp).1
    · exact absurd (hi.drawn _ _ id hold hp) (hdrew id hq).1
    · exact hi.apart _ _ _ _ id hold hold' hp hq

theorem create (hi : Inv entries s) (h : s.initializeAuthorizationCache pid id = some s') :
    Inv entries s' := by
  unfold initializeAuthorizationCache at h
  split_ifs at h with hbusy hsome
  · rw [← Option.some.inj h]
    exact hi
  · have hfresh : id ∉ s.drawn := fun hid => hbusy (Or.inr hid)
    rw [← Option.some.inj h]
    have hsound : Proc.Sound s.taken s.dir.current (.initializing id .creating) := trivial
    apply hi.spawn hsound (fun _ h => List.mem_cons_of_mem id h) _ (Or.inr rfl)
    · intro hopens
      cases hopens
    · rintro own rfl
      exact ⟨hfresh, List.mem_cons_self⟩

theorem start (hi : Inv entries s) (h : s.start follower pid = some s') : Inv entries s' := by
  unfold Sys.start at h
  rw [Option.ite_none_left_eq_some] at h
  replace h := h.2
  have hnew : ∀ (loaded : Option AuthorizationCache) id, ¬ (Proc.starting loaded).drew id :=
    fun _ _ hdrew => hdrew
  cases follower with
  | relay =>
    cases hload : loadInitializedAuthorizationCache s.dir.current with
    | none =>
      rw [hload] at h
      rw [← Option.some.inj h]
      exact hi
    | some cache =>
      rw [hload] at h
      rw [← Option.some.inj h]
      have hsound : Proc.Sound s.taken s.dir.current (.starting (some cache)) := trivial
      exact hi.spawn hsound (fun _ h => h) (fun id h => absurd h (hnew _ id)) (Or.inr rfl)
        fun h => by cases h
  | home =>
    dsimp only at h
    split_ifs at h with hopened
    · rw [← Option.some.inj h]
      exact hi
    · have hnone : s.opened = none := Option.not_isSome_iff_eq_none.mp hopened
      rw [← Option.some.inj h]
      have hsound : Proc.Sound s.taken s.dir.current (.starting none) := trivial
      exact hi.spawn hsound (fun _ h => h) (fun id h => absurd h (hnew _ id)) (Or.inl hnone)
        fun _ => rfl

/-- What the file says is on the disk, so any crash leaves it. -/
theorem takeSettled (hi : Inv entries s) (hpending : ∀ c ∈ s.dir.pending,
    c.touches (· == Name.cache) = false)
    (hload : loadInitializedAuthorizationCache s.dir.current = some cache) :
    Disk entries (s.taken ++ [cache]) s.dir := by
  have hcurrent := load_eq_some.mp hload
  apply hi.disk.take
  · intro older holder
    obtain ⟨held, hheld, hle⟩ := hi.disk.covers.current older holder
    rw [hcurrent] at hheld
    cases hheld
    exact hle
  · intro keep _ newest hnewest
    rw [List.mem_singleton.mp hnewest]
    refine ⟨cache, ?_, Precedes.refl cache⟩
    rw [Directory.crash_of_not_touches hpending]
    exact hcurrent

theorem enter (hi : Inv entries s) (hsettled : s.settled (.enter pid))
    (h : s.enter pid = some s') : Inv entries s' := by
  unfold Sys.enter at h
  split at h
  · rename_i cache hpid
    split_ifs at h with hopened
    · rw [← Option.some.inj h]
      exact hi.exit
    · have hnone : s.opened = none := Option.not_isSome_iff_eq_none.mp hopened
      have hloaded : s.loaded pid = some cache := by
        unfold loaded
        rw [hpid]
      have hload := hsettled.2 cache hloaded
      rw [← Option.some.inj h]
      apply hi.take _ (hi.takeSettled hsettled.1 hload) rfl
      intro other p _ hother
      cases hp : p.opens with
      | false => rfl
      | true =>
        have hopened := hi.opened other p hother hp
        rw [hnone] at hopened
        cases hopened
  · rename_i hpid
    cases hload : loadInitializedAuthorizationCache s.dir.current with
    | none =>
      rw [hload] at h
      rw [← Option.some.inj h]
      exact hi.exit
    | some cache =>
      have hopened : s.opened = some pid := hi.opened pid _ hpid rfl
      rw [hload] at h
      rw [← Option.some.inj h]
      unfold Sys.take
      rw [hopened]
      exact hi.take (fun _ _ hne h => hi.alone hpid rfl hne h)
        (hi.takeSettled hsettled.1 hload) rfl
  · cases h

/-- The serving process takes a cache: the one it has, or the one that it has stored. -/
theorem takeServing (hi : Inv entries s) {dir : Directory Name File} {storing : Option Storing}
    (hpid : s.procs.lookup pid = some (.serving cache storing))
    (hdisk : Disk entries s.taken dir) (hle : cache.Precedes proposed)
    (hheld : dir.Safe unordered (Covers [proposed])) (hcurrent : dir.current = s.dir.current) :
    Inv entries ({ s with dir }.take pid proposed) := by
  have hopened : s.opened = some pid := hi.opened pid _ hpid rfl
  have hlast := (hi.sound pid _ hpid).1
  unfold Sys.take
  dsimp only
  rw [hopened]
  apply hi.take (fun _ _ hne h => hi.alone hpid rfl hne h) _ hcurrent
  exact hdisk.take (fun older holder => (hdisk.precedes_last hlast older holder).trans hle) hheld

theorem receive (hi : Inv entries s) {authorization : VerifiedAuthorization}
    (h : s.applyAuthorizationSnapshot pid authorization id = some s') : Inv entries s' := by
  unfold applyAuthorizationSnapshot at h
  split at h
  · rename_i cache hpid
    have hlast := (hi.sound pid _ hpid).1
    cases haccept : cache.accept authorization with
    | none =>
      rw [haccept] at h
      rw [← Option.some.inj h]
      exact hi
    | some proposed =>
      rw [haccept] at h
      dsimp only at h
      split_ifs at h with hsame hdrawn
      · have hmem : cache ∈ s.taken := List.mem_of_getLast? hlast
        have hheld : s.dir.Safe unordered (Covers [cache]) := by
          intro keep hkeep newest hnewest
          rw [List.mem_singleton.mp hnewest]
          exact hi.disk.covers keep hkeep cache hmem
        rw [← Option.some.inj h]
        exact hi.takeServing hpid hi.disk (Precedes.refl cache) hheld rfl
      · have hle : cache.Precedes proposed := AuthorizationCache.precedes_of_accept haccept
        have hsound : Proc.Sound s.taken s.dir.current
          (.serving cache (some (.creating id proposed))) := ⟨hlast, hle⟩
        rw [← Option.some.inj h]
        exact hi.update hpid (fun _ h => List.mem_cons_of_mem id h) hi.disk hsound
          (fun other p _ h => hi.sound other p h) (fun _ => rfl) (fun _ h => h)
  · cases h

/-- A step that only gives up or ends what the process was doing. -/
theorem setServing (hi : Inv entries s) {storing storing' : Option Storing}
    (hpid : s.procs.lookup pid = some (.serving cache storing))
    (hsound : Proc.Sound s.taken s.dir.current (.serving cache storing')) :
    Inv entries (s.setProc pid (.serving cache storing')) :=
  hi.setProc hpid hsound (fun _ => rfl) (fun _ h => h)

theorem setInitializing (hi : Inv entries s) {phase phase' : Initializing}
    (hpid : s.procs.lookup pid = some (.initializing id phase)) (hphase : phase' ≠ .linking) :
    Inv entries (s.setProc pid (.initializing id phase')) := by
  have hsound : Proc.Sound s.taken s.dir.current (.initializing id phase') := by
    cases phase' with
    | linking => exact absurd rfl hphase
    | _ => trivial
  exact hi.setProc hpid hsound (fun h => by cases h) (fun _ h => h)

theorem removeInitial (hi : Inv entries s) {phase : Initializing}
    (hpid : s.procs.lookup pid = some (.initializing id phase)) :
    Inv entries (s.remove pid (.initial id) (.initializing id .removing)) := by
  unfold remove
  split_ifs
  · apply hi.changeInitial hpid
    · intro name hname
      exact beq_eq_false_iff_ne.mpr hname.symm
    · trivial
  · exact hi.setInitializing hpid (by simp)

theorem removeTemporary (hi : Inv entries s) {storing : Option Storing}
    (hpid : s.procs.lookup pid = some (.serving cache storing)) :
    Inv entries (s.remove pid (.temporary id) (.serving cache none)) := by
  have hlast := (hi.sound pid _ hpid).1
  unfold remove
  split_ifs
  · exact hi.changeServing hpid (fun _ => rfl) (hi.disk.changeOther rfl) ⟨hlast, trivial⟩
  · exact hi.setServing hpid ⟨hlast, trivial⟩

theorem tearInitial (hi : Inv entries s) {phase : Initializing} {torn : Bool}
    (hpid : s.procs.lookup pid = some (.initializing id phase)) :
    Inv entries (s.tear pid (.initial id) torn (.initializing id .removing)) := by
  unfold tear
  split_ifs
  · apply hi.changeInitial hpid
    · intro name hname
      exact beq_eq_false_iff_ne.mpr hname.symm
    · trivial
  · exact hi.setInitializing hpid (by simp)

theorem tearTemporary (hi : Inv entries s) {storing : Option Storing} {torn : Bool}
    (hpid : s.procs.lookup pid = some (.serving cache storing)) :
    Inv entries (s.tear pid (.temporary id) torn (.serving cache (some (.removing id)))) := by
  have hlast := (hi.sound pid _ hpid).1
  unfold tear
  split_ifs
  · exact hi.changeServing hpid (fun _ => rfl) (hi.disk.changeOther rfl) ⟨hlast, trivial⟩
  · exact hi.setServing hpid ⟨hlast, trivial⟩

theorem goInitializing (hi : Inv entries s) {phase : Initializing}
    (hpid : s.procs.lookup pid = some (.initializing id phase)) :
    Inv entries (s.goInitializing pid id phase) := by
  have hsound := hi.sound pid _ hpid
  cases phase with
  | creating =>
    unfold Sys.goInitializing
    dsimp only
    split_ifs
    · exact hi.setInitializing hpid (by simp)
    · apply hi.changeInitial hpid
      · intro name hname
        exact beq_eq_false_iff_ne.mpr hname.symm
      · exact Change.apply_link_self ..
  | linking =>
    have hfile : s.dir.current (.initial id) = some (.cache {}) := hsound
    unfold Sys.goInitializing
    rw [hfile]
    cases hcache : s.dir.current .cache with
    | none => exact hi.link hpid hcache
    | some file => exact hi.setInitializing hpid (by simp)
  | syncing => exact hi.sync hpid trivial (fun h => by cases h) (fun _ h => h)
  | removing => exact (hi.removeInitial hpid).exit

theorem goStoring (hi : Inv entries s) {storing : Storing}
    (hpid : s.procs.lookup pid = some (.serving cache (some storing))) :
    Inv entries (s.goStoring pid cache storing) := by
  obtain ⟨hlast, hstoring⟩ := hi.sound pid _ hpid
  cases storing with
  | creating id proposed =>
    unfold Sys.goStoring
    dsimp only
    split_ifs
    · exact hi.setServing hpid ⟨hlast, trivial⟩
    · exact hi.changeServing hpid (fun _ => rfl) (hi.disk.changeOther rfl)
        ⟨hlast, hstoring, Change.apply_link_self ..⟩
  | replacing id proposed =>
    obtain ⟨hle, hfile⟩ := hstoring
    obtain ⟨held, hheld, -⟩ := hi.disk.covers.current cache (List.mem_of_getLast? hlast)
    have hall : ∀ older ∈ s.taken, older.Precedes proposed :=
      fun older holder => (hi.disk.precedes_last hlast older holder).trans hle
    unfold Sys.goStoring
    dsimp only
    rw [hfile]
    exact hi.changeServing hpid (fun _ => rfl) (hi.disk.rename hheld hall)
      ⟨hlast, hle, Change.apply_rename_target ..⟩
  | syncing id proposed =>
    obtain ⟨hle, hfile⟩ := hstoring
    apply hi.takeServing hpid hi.disk.sync hle _ rfl
    apply Directory.safe_sync
    intro newest hnewest
    rw [List.mem_singleton.mp hnewest]
    exact ⟨proposed, hfile, Precedes.refl proposed⟩
  | removing id => exact hi.removeTemporary hpid

theorem go (hi : Inv entries s) (h : s.go pid = some s') : Inv entries s' := by
  unfold Sys.go at h
  split at h
  · rename_i id phase hpid
    rw [← Option.some.inj h]
    exact hi.goInitializing hpid
  · rename_i cache storing hpid
    rw [← Option.some.inj h]
    exact hi.goStoring hpid
  · cases h

theorem fail (hi : Inv entries s) {torn : Bool} (h : s.fail pid torn = some s') :
    Inv entries s' := by
  unfold Sys.fail at h
  split at h
  · rename_i id hpid
    rw [← Option.some.inj h]
    exact hi.tearInitial hpid
  · rw [← Option.some.inj h]
    exact hi.exit
  · rename_i id phase _ _ hpid
    rw [← Option.some.inj h]
    exact hi.setInitializing hpid (by simp)
  · rename_i cache storing hpid
    have hlast := (hi.sound pid _ hpid).1
    rw [← Option.some.inj h]
    cases storing with
    | creating id proposed => exact hi.tearTemporary hpid
    | _ => exact hi.setServing hpid ⟨hlast, trivial⟩
  · cases h

/-- Nothing runs after a crash. -/
theorem crash (hi : Inv entries s) (keep : List Bool) :
    Inv entries { s with dir := s.dir.crash keep, procs := ∅, opened := none } where
  disk := hi.disk.crash keep
  sound _ _ h := by cases h
  opened _ _ h := by cases h
  drawn _ _ _ h := by cases h
  apart _ _ _ _ _ h := by cases h

theorem step (hi : Inv entries s) (hsettled : s.settled a) (h : s.step follower a = some s') :
    Inv entries s' := by
  cases a with
  | create pid id => exact hi.create h
  | start pid => exact hi.start h
  | enter pid => exact hi.enter hsettled h
  | receive pid authorization id => exact hi.receive h
  | go pid => exact hi.go h
  | fail pid torn => exact hi.fail h
  | kill pid =>
    have hexit := (Option.ite_none_right_eq_some.mp h).2
    rw [← Option.some.inj hexit]
    exact hi.exit
  | crash keep =>
    rw [← Option.some.inj h]
    exact hi.crash keep

theorem remembers (hi : Inv entries s) : s.Remembers entries where
  rising := hi.disk.rising
  crash keep cache hcache := by
    obtain ⟨held, hheld, hle⟩ := hi.disk.covers keep (ordered s.dir keep) cache hcache
    exact ⟨held, load_eq_some.mpr hheld, hle⟩
  whole keep := hi.disk.whole keep (ordered s.dir keep)
  serving pid cache storing h := ⟨hi.opened pid _ h rfl, (hi.sound pid _ h).1⟩

end Inv
end Sys

/-- Where processes start to serve on what is on the disk, and a Relay on what its file still says,
nothing that was taken is forgotten. -/
theorem never_forgets (h : (machine follower entries).ReachableWhere Sys.settled s) :
    s.Remembers entries :=
  have hi : Sys.Inv entries s :=
    h.invariant Sys.Inv.initial fun _ _ _ _ hi hsettled hs => hi.step hsettled hs
  hi.remembers

/-- What one generation authorizes, with the credentials that it revokes. -/
def sampleAuthorization (generation : ℕ) (revoked : Finset Uuid) : VerifiedAuthorization :=
  ⟨generation, "", [], [], [], revoked⟩

/-- A Relay is initialized, stores two generations and loses power after it has renamed the second,
which survives. -/
def sampleRun : List Action :=
  [.create 0 7, .go 0, .go 0, .go 0, .go 0, .start 1, .enter 1,
    .receive 1 (sampleAuthorization 5 ∅) 8, .go 1, .go 1, .go 1,
    .receive 1 (sampleAuthorization 6 {1}) 9, .go 1, .go 1, .crash [false, true], .start 2, .enter 2]

def sampleEnd : Sys :=
  ((machine .relay fun _ => none).execWhere Sys.settled sampleRun).getD
    (machine .relay fun _ => none).start

theorem never_forgets_sample :
    sampleEnd.taken = [{}, ⟨5, "", ∅⟩, ⟨6, "", {1}⟩] ∧ sampleEnd.Remembers fun _ => none := by
  have hrun : (machine .relay fun _ => none).execWhere Sys.settled sampleRun = some sampleEnd := rfl
  exact ⟨rfl, never_forgets (Machine.reachableWhere_of_execWhere hrun)⟩

/-- A directory whose cache was just initialized. -/
def freshEntries : Entries := fun name => if name = .cache then some (.cache {}) else none

/-- A process renames and is killed, and the next one takes what is not on the disk yet. -/
def pendingRun : List Action :=
  [.start 1, .enter 1, .receive 1 (sampleAuthorization 6 {1}) 9, .go 1, .go 1, .kill 1, .start 2,
    .enter 2]

def pendingEnd : Sys :=
  ((machine .home freshEntries).execWhere Sys.unchanged pendingRun).getD
    (machine .home freshEntries).start

theorem not_remembers_of_unchanged : ¬ ∀ (follower : Follower) (entries : Entries) (s : Sys),
    (machine follower entries).ReachableWhere Sys.unchanged s → s.Remembers entries := by
  intro hall
  have hrun : (machine .home freshEntries).execWhere Sys.unchanged pendingRun = some pendingEnd :=
    rfl
  have hremembers := hall .home freshEntries pendingEnd (Machine.reachableWhere_of_execWhere hrun)
  have htaken : (⟨6, "", {1}⟩ : AuthorizationCache) ∈ pendingEnd.taken := by decide
  obtain ⟨held, hheld, hle⟩ := hremembers.crash [] _ htaken
  have hlost : loadInitializedAuthorizationCache (pendingEnd.dir.crash []).durable = some {} := rfl
  rw [hlost] at hheld
  rw [← Option.some.inj hheld] at hle
  exact absurd hle.1 (by decide)

/-- A Relay loads its cache while another still stores, and opens the state store after that. -/
def racedRun : List Action :=
  [.start 1, .enter 1, .receive 1 (sampleAuthorization 6 {1}) 9, .start 2, .go 1, .go 1, .go 1,
    .kill 1, .enter 2]

def racedEnd : Sys :=
  ((machine .relay freshEntries).execWhere Sys.onDisk racedRun).getD
    (machine .relay freshEntries).start

theorem not_remembers_of_onDisk : ¬ ∀ (follower : Follower) (entries : Entries) (s : Sys),
    (machine follower entries).ReachableWhere Sys.onDisk s → s.Remembers entries := by
  intro hall
  have hrun : (machine .relay freshEntries).execWhere Sys.onDisk racedRun = some racedEnd := rfl
  have hremembers := hall .relay freshEntries racedEnd (Machine.reachableWhere_of_execWhere hrun)
  have hrising := hremembers.rising
  have htaken : racedEnd.taken = [{}, {}, ⟨6, "", {1}⟩, {}] := rfl
  rw [htaken] at hrising
  have hle := List.rel_of_pairwise_cons (List.pairwise_cons.mp (List.pairwise_cons.mp hrising).2).2
    List.mem_cons_self
  exact absurd hle.1 (by decide)

end CacheFile
end FlowSplice
