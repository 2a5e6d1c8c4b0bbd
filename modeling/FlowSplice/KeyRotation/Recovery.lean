import FlowSplice.KeyRotation.System

/-! Whatever a crash leaves, a recovery ends with all keys under one password, as long as no crash
keeps a change of a key or of the journal without those before it. -/
namespace FlowSplice.KeyRotation

section
variable {δ : Type} (rotation : Rotation δ) (material : String → ℕ)

/-- All keys decrypt under one password, to the material that they had at first. -/
def Uniform (entries : Entries δ) (password : String) : Prop :=
  ∀ file ∈ rotation.targets, ∃ salt,
    entries (.target file) = some (.key (material file) password salt)

/-- The file that the transaction has made for an entry. -/
def Made (transaction : Uuid) (entry : RotationJournalEntry δ) (file : File δ) : Prop :=
  entry.stagedFile = .staged entry.targetFile transaction ∧
    entry.encryptedSha256 = rotation.sha256 file ∧
    ∃ salt, file = .key (material entry.targetFile) rotation.newPassword salt

def Staged (entries : Entries δ) (transaction : Uuid) (entry : RotationJournalEntry δ) : Prop :=
  ∃ file, Made rotation material transaction entry file ∧ entries entry.stagedFile = some file

/-- The staged file of the entry has replaced the key. -/
def Replaced (entries : Entries δ) (transaction : Uuid) (entry : RotationJournalEntry δ) : Prop :=
  ∃ file, Made rotation material transaction entry file ∧ entries entry.stagedFile = none ∧
    entries (.target entry.targetFile) = some file

/-- What makes a directory recoverable: without a journal all keys are the old ones or the new
ones, and with one each key is the new one or has it staged. -/
def Recoverable (used : Uuid → Prop) (entries : Entries δ) : Prop :=
  match entries .journal with
  | none => Uniform rotation material entries rotation.currentPassword ∨
      Uniform rotation material entries rotation.newPassword
  | some (.journal journal) => journal.version = rotationJournalVersion ∧
      journal.entries.map (·.targetFile) = rotation.targets ∧
      (∀ file ∈ rotation.targets, (entries (.target file)).isSome) ∧
      ∃ transaction, used transaction ∧ ∀ entry ∈ journal.entries,
        Staged rotation material entries transaction entry ∨
          Replaced rotation material entries transaction entry
  | some _ => False

/-- What a call has reached, by the entries as it sees them. -/
def Phase.Reached (used : Uuid → Prop) (drawn : List Uuid) (entries : Entries δ) :
    Phase δ → Prop
  | .staging transaction done todo => (¬ used transaction ∧ transaction ∈ drawn) ∧
      entries .journal = none ∧
      Uniform rotation material entries rotation.currentPassword ∧
      done.map (·.targetFile) ++ todo.map (·.1) = rotation.targets ∧
      (∀ entry ∈ done, Staged rotation material entries transaction entry) ∧
      ∀ p ∈ todo, ∃ salt, p.2 = .key (material p.1) rotation.newPassword salt
  | .publishing transaction journal => (¬ used transaction ∧ transaction ∈ drawn) ∧
      entries .journal = none ∧
      Uniform rotation material entries rotation.currentPassword ∧
      journal.version = rotationJournalVersion ∧
      journal.entries.map (·.targetFile) = rotation.targets ∧
      ∀ entry ∈ journal.entries, Staged rotation material entries transaction entry
  | .published journal => entries .journal = some (.journal journal)
  | .replacing todo | .replaced todo => ∃ journal done,
      entries .journal = some (.journal journal) ∧ journal.entries = done ++ todo ∧
      ∀ entry ∈ done, entries entry.stagedFile = none
  | .removed => entries .journal = none ∧ Uniform rotation material entries rotation.newPassword
  | .cleaning names => ∀ name ∈ names, ∃ transaction, ¬ used transaction ∧
      (name = .temporary transaction ∨ ∃ file, name = .staged file transaction)

/-- The entries agree on what makes a directory recoverable. -/
structure Agree (used : Uuid → Prop) (entries other : Entries δ) : Prop where
  journal : other .journal = entries .journal
  target : ∀ file, other (.target file) = entries (.target file)
  staged : ∀ file transaction, used transaction →
    other (.staged file transaction) = entries (.staged file transaction)

/-- What holds of every state, with the transactions whose journals may be found. -/
structure Sys.Inv (used : Uuid → Prop) (s : Sys δ) : Prop where
  drawn : ∀ transaction, used transaction → transaction ∈ s.drawn
  safe : s.dir.Safe Name.ordered (Recoverable rotation material used)
  call : ∀ rotating phase, s.call = some ⟨rotating, phase⟩ →
    phase.Reached rotation material used s.drawn s.dir.current
  rotated : s.rotated = true → s.call = none ∧ s.dir.Safe Name.ordered fun entries =>
    entries .journal = none ∧ Uniform rotation material entries rotation.newPassword

end

section
variable {δ : Type} {rotation : Rotation δ} {material : String → ℕ} {used : Uuid → Prop}
  {entries other : Entries δ} {transaction : Uuid} {entry : RotationJournalEntry δ}

theorem Uniform.of_agree {password : String} (h : Uniform rotation material entries password)
    (ha : Agree used entries other) : Uniform rotation material other password := by
  intro file hfile
  rw [ha.target]
  exact h file hfile

theorem Staged.of_agree (h : Staged rotation material entries transaction entry)
    (hused : used transaction) (ha : Agree used entries other) :
    Staged rotation material other transaction entry := by
  obtain ⟨file, hmade, hentry⟩ := h
  refine ⟨file, hmade, ?_⟩
  rw [hmade.1] at hentry ⊢
  rw [ha.staged _ _ hused]
  exact hentry

theorem Replaced.of_agree (h : Replaced rotation material entries transaction entry)
    (hused : used transaction) (ha : Agree used entries other) :
    Replaced rotation material other transaction entry := by
  obtain ⟨file, hmade, hnone, htarget⟩ := h
  refine ⟨file, hmade, ?_, ?_⟩
  · rw [hmade.1] at hnone ⊢
    rw [ha.staged _ _ hused]
    exact hnone
  · rw [ha.target]
    exact htarget

theorem Recoverable.of_agree (h : Recoverable rotation material used entries)
    (ha : Agree used entries other) : Recoverable rotation material used other := by
  unfold Recoverable at h ⊢
  rw [ha.journal]
  cases hjournal : entries .journal with
  | none =>
    rw [hjournal] at h
    exact h.imp (·.of_agree ha) (·.of_agree ha)
  | some file =>
    rw [hjournal] at h
    cases file with
    | key material password salt => exact h
    | torn => exact h
    | journal journal =>
      obtain ⟨hversion, htargets, hsome, transaction, hused, hall⟩ := h
      refine ⟨hversion, htargets, ?_, transaction, hused, ?_⟩
      · intro file hfile
        rw [ha.target]
        exact hsome file hfile
      · intro entry hentry
        exact (hall entry hentry).imp (·.of_agree hused ha) (·.of_agree hused ha)

/-- Another transaction may be used as well. -/
theorem Recoverable.mono {used' : Uuid → Prop} (h : Recoverable rotation material used entries)
    (hle : ∀ transaction, used transaction → used' transaction) :
    Recoverable rotation material used' entries := by
  unfold Recoverable at h ⊢
  cases hjournal : entries .journal with
  | none =>
    rw [hjournal] at h
    exact h
  | some file =>
    rw [hjournal] at h
    cases file with
    | key material password salt => exact h
    | torn => exact h
    | journal journal =>
      obtain ⟨hversion, htargets, hsome, transaction, hused, hall⟩ := h
      exact ⟨hversion, htargets, hsome, transaction, hle transaction hused, hall⟩

/-- What is under a name of an unused transaction does not matter. -/
theorem agree_of_ne {name : Name} (hunused : ¬ used transaction)
    (hname : name = .temporary transaction ∨ ∃ file, name = .staged file transaction)
    (h : ∀ other', other' ≠ name → other other' = entries other') : Agree used entries other := by
  refine ⟨?_, ?_, ?_⟩
  · apply h
    rintro rfl
    rcases hname with hname | ⟨file, hname⟩ <;> cases hname
  · intro file
    apply h
    rintro rfl
    rcases hname with hname | ⟨file, hname⟩ <;> cases hname
  · intro file transaction' hused
    apply h
    rintro rfl
    rcases hname with hname | ⟨file, hname⟩
    · cases hname
    · cases hname
      exact hunused hused

theorem agree_link {name : Name} (hunused : ¬ used transaction)
    (hname : name = .temporary transaction ∨ ∃ file, name = .staged file transaction)
    (file : File δ) : Agree used entries (Change.apply entries (.link name file)) :=
  agree_of_ne hunused hname fun _ h => Change.apply_link_ne h

theorem agree_unlink {name : Name} (hunused : ¬ used transaction)
    (hname : name = .temporary transaction ∨ ∃ file, name = .staged file transaction) :
    Agree used entries (Change.apply entries (.unlink name)) :=
  agree_of_ne hunused hname fun _ h => Change.apply_unlink_ne h

theorem loadPrivateKey_of_uniform {password password' : String} {file : String}
    (h : Uniform rotation material entries password) (hfile : file ∈ rotation.targets) :
    loadPrivateKey entries file password' =
      if password = password' then some (material file) else none := by
  obtain ⟨salt, heq⟩ := h file hfile
  unfold loadPrivateKey
  rw [heq]

/-- Keys under the current password are encrypted again. -/
theorem reencrypt_of_current
    (h : Uniform rotation material entries rotation.currentPassword) (salt : String → ℕ) :
    reencrypt rotation entries salt = some (rotation.targets.map fun file =>
      (file, .key (material file) rotation.newPassword (salt file))) := by
  unfold reencrypt
  apply Keyed.mapM_eq_map
  intro file hfile
  rw [loadPrivateKey_of_uniform h hfile, if_pos rfl]
  rfl

/-- Keys under the new password do not decrypt under the current one. -/
theorem reencrypt_of_new (hvalid : rotation.Valid)
    (h : Uniform rotation material entries rotation.newPassword) (salt : String → ℕ) :
    reencrypt rotation entries salt = none := by
  obtain ⟨file, hfile⟩ := List.exists_mem_of_ne_nil _ hvalid.targets_ne
  unfold reencrypt
  apply Keyed.mapM_eq_none hfile
  rw [loadPrivateKey_of_uniform h hfile, if_neg fun heq => hvalid.differ heq.symm]
  rfl

theorem Made.stagedFile (h : Staged rotation material entries transaction entry ∨
    Replaced rotation material entries transaction entry) :
    entry.stagedFile = .staged entry.targetFile transaction := by
  rcases h with ⟨file, hmade, -⟩ | ⟨file, hmade, -⟩
  · exact hmade.1
  · exact hmade.1

/-- The entries of a journal name files of one transaction. -/
theorem Recoverable.stagedFile {journal : RotationJournal δ}
    (h : Recoverable rotation material used entries)
    (hjournal : entries .journal = some (.journal journal)) :
    ∃ transaction, ∀ entry ∈ journal.entries,
      entry.stagedFile = .staged entry.targetFile transaction := by
  unfold Recoverable at h
  rw [hjournal] at h
  obtain ⟨-, -, -, transaction, -, hall⟩ := h
  exact ⟨transaction, fun entry hentry => Made.stagedFile (hall entry hentry)⟩

/-- A journal of one transaction for all targets is valid. -/
theorem validate_of_recoverable {journal : RotationJournal δ} [DecidableEq δ]
    (hvalid : rotation.Valid) (h : Recoverable rotation material used entries)
    (hjournal : entries .journal = some (.journal journal)) :
    validateRotationJournal rotation journal = true ∧
      rotation.targets.all (fun file => (entries (.target file)).isSome) = true := by
  obtain ⟨transaction, hstaged⟩ := h.stagedFile hjournal
  unfold Recoverable at h
  rw [hjournal] at h
  obtain ⟨hversion, htargets, hsome, -⟩ := h
  constructor
  · have hlength : journal.entries.length = rotation.targets.length := by
      rw [← htargets, List.length_map]
    unfold validateRotationJournal
    simp only [Bool.and_eq_true, beq_iff_eq, decide_eq_true_eq, List.all_eq_true,
      List.contains_iff_mem, htargets]
    refine ⟨⟨⟨⟨hversion, hlength⟩, ?_⟩, hvalid.nodup⟩, fun file hfile => hfile⟩
    intro entry hentry
    rw [hstaged entry hentry, ← htargets]
    exact ⟨List.mem_map_of_mem hentry, beq_self_eq_true _⟩
  · rw [List.all_eq_true]
    exact hsome

/-- A staged file replaces its key. -/
theorem Recoverable.rename {journal : RotationJournal δ} {file : File δ} (hvalid : rotation.Valid)
    (h : Recoverable rotation material used entries)
    (hjournal : entries .journal = some (.journal journal)) (hentry : entry ∈ journal.entries)
    (hfile : entries entry.stagedFile = some file) :
    Recoverable rotation material used
      (Change.apply entries (.rename entry.stagedFile (.target entry.targetFile) file)) := by
  unfold Recoverable at h
  rw [hjournal] at h
  obtain ⟨hversion, htargets, hsome, transaction, hused, hall⟩ := h
  have hname := Made.stagedFile (hall entry hentry)
  have hmade : Made rotation material transaction entry file := by
    rcases hall entry hentry with ⟨file', hmade, hstaged⟩ | ⟨file', -, hnone, -⟩
    · rw [hfile] at hstaged
      rw [Option.some.inj hstaged]
      exact hmade
    · rw [hfile] at hnone
      cases hnone
  have hkept : ∀ name, name ≠ entry.stagedFile → name ≠ .target entry.targetFile →
      Change.apply entries (.rename entry.stagedFile (.target entry.targetFile) file) name =
        entries name := fun name hs ht => Change.apply_rename_ne hs ht
  have hjournal' : Change.apply entries (.rename entry.stagedFile (.target entry.targetFile) file)
      .journal = some (.journal journal) := by
    rw [hkept .journal (by rw [hname]; exact fun h => by cases h) (fun h => by cases h), hjournal]
  have htargets_nodup : (journal.entries.map (·.targetFile)).Nodup := by
    rw [htargets]
    exact hvalid.nodup
  unfold Recoverable
  rw [hjournal']
  refine ⟨hversion, htargets, ?_, transaction, hused, ?_⟩
  · intro target htarget
    by_cases heq : target = entry.targetFile
    · rw [heq, Change.apply_rename_target]
      rfl
    · rw [hkept]
      · exact hsome target htarget
      · rw [hname]
        exact fun h => by cases h
      · exact fun h => heq (Name.target.inj h)
  · intro other hother
    by_cases heq : other.targetFile = entry.targetFile
    · have hsame : other = entry := List.inj_on_of_nodup_map htargets_nodup hother hentry heq
      subst hsame
      right
      refine ⟨file, hmade, ?_, Change.apply_rename_target ..⟩
      apply Change.apply_rename_source
      rw [hname]
      exact fun h => by cases h
    · have hotherName := Made.stagedFile (hall other hother)
      have hstaged : Change.apply entries
          (.rename entry.stagedFile (.target entry.targetFile) file) other.stagedFile =
            entries other.stagedFile := by
        apply hkept
        · rw [hname, hotherName]
          exact fun h => heq (Name.staged.inj h).1
        · rw [hotherName]
          exact fun h => by cases h
      rcases hall other hother with ⟨file', hmade', hfile'⟩ | ⟨file', hmade', hnone, htarget⟩
      · exact .inl ⟨file', hmade', hstaged.trans hfile'⟩
      · refine .inr ⟨file', hmade', hstaged.trans hnone, ?_⟩
        rw [hkept]
        · exact htarget
        · rw [hname]
          exact fun h => by cases h
        · exact fun h => heq (Name.target.inj h)

/-- Without a staged file left, all keys are the new ones. -/
theorem Recoverable.uniform {journal : RotationJournal δ}
    (h : Recoverable rotation material used entries)
    (hjournal : entries .journal = some (.journal journal))
    (hnone : ∀ entry ∈ journal.entries, entries entry.stagedFile = none) :
    Uniform rotation material entries rotation.newPassword := by
  unfold Recoverable at h
  rw [hjournal] at h
  obtain ⟨-, htargets, -, transaction, -, hall⟩ := h
  intro file hfile
  rw [← htargets] at hfile
  obtain ⟨entry, hentry, rfl⟩ := List.mem_map.mp hfile
  rcases hall entry hentry with ⟨key, -, hstaged⟩ | ⟨key, hmade, -, htarget⟩
  · rw [hnone entry hentry] at hstaged
    cases hstaged
  · obtain ⟨-, -, salt, hkey⟩ := hmade
    exact ⟨salt, by rw [htarget, hkey]⟩

theorem Uniform.apply {password : String} {c : Change Name (File δ)}
    (h : Uniform rotation material entries password)
    (hc : ∀ file, c.apply entries (.target file) = entries (.target file)) :
    Uniform rotation material (c.apply entries) password := by
  intro file hfile
  rw [hc]
  exact h file hfile

theorem unlink_journal (h : Uniform rotation material entries rotation.newPassword) :
    Change.apply entries (.unlink .journal) .journal = none ∧
      Uniform rotation material (Change.apply entries (.unlink .journal)) rotation.newPassword := by
  refine ⟨Change.apply_unlink_self .., h.apply ?_⟩
  intro file
  exact Change.apply_unlink_ne fun h => by cases h

/-- The journal is published once all files are staged. -/
theorem recoverable_publish {journal : RotationJournal δ}
    (h : Uniform rotation material entries rotation.currentPassword)
    (hversion : journal.version = rotationJournalVersion)
    (htargets : journal.entries.map (·.targetFile) = rotation.targets)
    (hall : ∀ entry ∈ journal.entries, Staged rotation material entries transaction entry) :
    Recoverable rotation material (fun other => used other ∨ other = transaction)
      (Change.apply entries (.rename (.temporary transaction) .journal (.journal journal))) := by
  have hkept : ∀ name, name ≠ .temporary transaction → name ≠ .journal →
      Change.apply entries (.rename (.temporary transaction) .journal (.journal journal)) name =
        entries name := fun name hs ht => Change.apply_rename_ne hs ht
  unfold Recoverable
  rw [Change.apply_rename_target]
  refine ⟨hversion, htargets, ?_, transaction, .inr rfl, ?_⟩
  · intro file hfile
    obtain ⟨salt, hkey⟩ := h file hfile
    rw [hkept _ (fun h => by cases h) (fun h => by cases h), hkey]
    rfl
  · intro entry hentry
    obtain ⟨file, hmade, hfile⟩ := hall entry hentry
    refine .inl ⟨file, hmade, ?_⟩
    rw [hkept]
    · exact hfile
    · rw [hmade.1]
      exact fun h => by cases h
    · rw [hmade.1]
      exact fun h => by cases h

end

namespace Sys
variable {δ : Type} {rotation : Rotation δ} {material : String → ℕ}
  {used : Uuid → Prop} {s s' : Sys δ} {rotating : Bool} {phase : Phase δ}
  {dir : Directory Name (File δ)}

theorem Inv.not_rotated (h : s.Inv rotation material used)
    (hcall : s.call = some ⟨rotating, phase⟩) :
    s.rotated = false := by
  cases hrotated : s.rotated with
  | false => rfl
  | true =>
    have hnone := (h.rotated hrotated).1
    rw [hcall] at hnone
    cases hnone

/-- The call goes on in a directory that can be recovered. -/
theorem Inv.calling {used' : Uuid → Prop} {phase' : Phase δ} (h : s.Inv rotation material used)
    (hcall : s.call = some ⟨rotating, phase⟩)
    (hdrawn : ∀ transaction, used' transaction → transaction ∈ s.drawn)
    (hsafe : dir.Safe Name.ordered (Recoverable rotation material used'))
    (hreached : phase'.Reached rotation material used' s.drawn dir.current) :
    Sys.Inv rotation material used' ⟨dir, some ⟨rotating, phase'⟩, s.drawn, s.rotated⟩ := by
  refine ⟨hdrawn, hsafe, ?_, ?_⟩
  · intro rotating' phase'' heq
    cases heq
    exact hreached
  · intro hrotated
    rw [h.not_rotated hcall] at hrotated
    cases hrotated

/-- The call has ended. -/
theorem Inv.ended (h : s.Inv rotation material used) (hcall : s.call = some ⟨rotating, phase⟩)
    (hsafe : dir.Safe Name.ordered (Recoverable rotation material used)) :
    Sys.Inv rotation material used ⟨dir, none, s.drawn, s.rotated⟩ := by
  refine ⟨h.drawn, hsafe, ?_, ?_⟩
  · intro rotating' phase' heq
    cases heq
  · intro hrotated
    rw [h.not_rotated hcall] at hrotated
    cases hrotated

theorem Inv.setCall_none (h : s.Inv rotation material used) :
    (s.setCall none).Inv rotation material used := by
  refine ⟨h.drawn, h.safe, ?_, ?_⟩
  · intro rotating' phase' heq
    cases heq
  · intro hrotated
    exact ⟨rfl, (h.rotated hrotated).2⟩

theorem Inv.crash {keep : List Bool} (h : s.Inv rotation material used)
    (hkeep : s.dir.Ordered Name.ordered keep) :
    Sys.Inv rotation material used { s with dir := s.dir.crash keep, call := none } := by
  refine ⟨h.drawn, Directory.safe_crash h.safe hkeep, ?_, ?_⟩
  · intro rotating' phase' heq
    cases heq
  · intro hrotated
    exact ⟨rfl, Directory.safe_crash (h.rotated hrotated).2 hkeep⟩

/-- A change under a name that no journal speaks of. -/
theorem Inv.safe_minor {name : Name} {transaction : Uuid} (h : s.Inv rotation material used)
    (hunused : ¬ used transaction)
    (hname : name = .temporary transaction ∨ ∃ file, name = .staged file transaction) :
    (∀ file, (s.dir.change (.link name file)).Safe Name.ordered
      (Recoverable rotation material used)) ∧
    (s.dir.change (.unlink name)).Safe Name.ordered (Recoverable rotation material used) := by
  constructor
  · intro file
    apply h.safe.change
    intro entries hentries
    exact hentries.of_agree (agree_link hunused hname file)
  · apply h.safe.change
    intro entries hentries
    exact hentries.of_agree (agree_unlink hunused hname)

theorem Inv.go_staging {transaction : Uuid} {done : List (RotationJournalEntry δ)} {file : String}
    {key : File δ} {todo : List (String × File δ)} (hvalid : rotation.Valid)
    (h : s.Inv rotation material used)
    (hcall : s.call = some ⟨rotating, .staging transaction done ((file, key) :: todo)⟩) :
    (s.change rotating (.link (.staged file transaction) key) (.staging transaction
      (done ++ [⟨file, .staged file transaction, rotation.sha256 key⟩]) todo)).Inv
        rotation material used := by
  obtain ⟨hfresh, hjournal, hcurrent, htargets, hdone, htodo⟩ := h.call _ _ hcall
  have hname : Name.staged file transaction = .temporary transaction ∨
      ∃ file', Name.staged file transaction = .staged file' transaction := .inr ⟨file, rfl⟩
  have hnodup : (done.map (·.targetFile) ++ file :: todo.map (·.1)).Nodup := by
    have heq : done.map (·.targetFile) ++ file :: todo.map (·.1) = rotation.targets := htargets
    rw [heq]
    exact hvalid.nodup
  apply h.calling hcall h.drawn ((h.safe_minor hfresh.1 hname).1 key)
  rw [Directory.current_change]
  have hkept : ∀ name, name ≠ .staged file transaction →
      Change.apply s.dir.current (.link (.staged file transaction) key) name =
        s.dir.current name := fun _ h => Change.apply_link_ne h
  refine ⟨hfresh, ?_, ?_, ?_, ?_, ?_⟩
  · rw [hkept _ (fun h => by cases h)]
    exact hjournal
  · apply hcurrent.apply
    intro target
    exact hkept _ fun h => by cases h
  · rw [List.map_append, List.append_assoc]
    exact htargets
  · intro entry hentry
    rcases List.mem_append.mp hentry with hentry | hentry
    · obtain ⟨made, hmade, hstaged⟩ := hdone entry hentry
      refine ⟨made, hmade, ?_⟩
      rw [hkept]
      · exact hstaged
      · rw [hmade.1]
        intro heq
        have hfile := (Name.staged.inj heq).1
        have hdisjoint := (List.nodup_append.mp hnodup).2.2
        exact hdisjoint _ (List.mem_map_of_mem hentry) _ List.mem_cons_self hfile
    · rw [List.mem_singleton.mp hentry]
      obtain ⟨salt, hkey⟩ := htodo _ List.mem_cons_self
      exact ⟨key, ⟨rfl, rfl, salt, hkey⟩, Change.apply_link_self ..⟩
  · intro p hp
    exact htodo p (List.mem_cons_of_mem _ hp)

theorem Inv.go_staged {transaction : Uuid} {done : List (RotationJournalEntry δ)}
    (h : s.Inv rotation material used)
    (hcall : s.call = some ⟨rotating, .staging transaction done []⟩) :
    (s.change rotating (.link (.temporary transaction) (.journal { entries := done }))
      (.publishing transaction { entries := done })).Inv rotation material used := by
  obtain ⟨hfresh, hjournal, hcurrent, htargets, hdone, -⟩ := h.call _ _ hcall
  apply h.calling hcall h.drawn ((h.safe_minor hfresh.1 (.inl rfl)).1 _)
  rw [Directory.current_change]
  have hkept : ∀ name, name ≠ .temporary transaction →
      Change.apply s.dir.current (.link (.temporary transaction) (.journal { entries := done }))
        name = s.dir.current name := fun _ h => Change.apply_link_ne h
  refine ⟨hfresh, ?_, ?_, rfl, ?_, ?_⟩
  · rw [hkept _ (fun h => by cases h)]
    exact hjournal
  · apply hcurrent.apply
    intro target
    exact hkept _ fun h => by cases h
  · rw [← htargets, List.map_nil, List.append_nil]
  · intro entry hentry
    obtain ⟨made, hmade, hstaged⟩ := hdone entry hentry
    refine ⟨made, hmade, ?_⟩
    rw [hkept]
    · exact hstaged
    · rw [hmade.1]
      exact fun h => by cases h

theorem Inv.go_publishing {transaction : Uuid} {journal : RotationJournal δ}
    (h : s.Inv rotation material used)
    (hcall : s.call = some ⟨rotating, .publishing transaction journal⟩) :
    (s.change rotating (.rename (.temporary transaction) .journal (.journal journal))
      (.published journal)).Inv rotation material fun other => used other ∨ other = transaction := by
  obtain ⟨hfresh, -, hcurrent, hversion, htargets, hall⟩ := h.call _ _ hcall
  apply h.calling hcall
  · rintro other (hother | rfl)
    · exact h.drawn other hother
    · exact hfresh.2
  · have hmono : s.dir.Safe Name.ordered
        (Recoverable rotation material fun other => used other ∨ other = transaction) :=
      h.safe.mono fun _ hentries => hentries.mono fun _ hused => .inl hused
    apply hmono.change_of_touches rfl
    exact recoverable_publish hcurrent hversion htargets hall
  · rw [Directory.current_change]
    exact Change.apply_rename_target ..

theorem Inv.sync (h : s.Inv rotation material used) :
    s.dir.sync.Safe Name.ordered (Recoverable rotation material used) :=
  Directory.safe_sync h.safe.current

theorem Inv.go_published {journal : RotationJournal δ} (h : s.Inv rotation material used)
    (hcall : s.call = some ⟨rotating, .published journal⟩) :
    (s.sync rotating (.replacing journal.entries)).Inv rotation material used := by
  have hjournal : s.dir.current .journal = some (.journal journal) := h.call _ _ hcall
  apply h.calling hcall h.drawn h.sync
  rw [Directory.current_sync]
  refine ⟨journal, [], hjournal, rfl, ?_⟩
  intro entry hentry
  cases hentry

/-- An entry whose turn it is finds its staged file, or its key replaced already. -/
theorem Inv.replace_cases [DecidableEq δ] {entry : RotationJournalEntry δ}
    {todo : List (RotationJournalEntry δ)} (h : s.Inv rotation material used)
    (hcall : s.call = some ⟨rotating, .replacing (entry :: todo)⟩) :
    (∃ file, s.dir.current entry.stagedFile = some file ∧
      s.replace rotation rotating entry todo = s.change rotating
        (.rename entry.stagedFile (.target entry.targetFile) file) (.replaced todo)) ∨
    (s.dir.current entry.stagedFile = none ∧
      s.replace rotation rotating entry todo = s.setCall (some ⟨rotating, .replacing todo⟩)) := by
  obtain ⟨journal, done, hjournal, hentries, -⟩ := h.call _ _ hcall
  have hrecoverable := h.safe.current
  unfold Recoverable at hrecoverable
  rw [hjournal] at hrecoverable
  obtain ⟨-, -, -, transaction, -, hall⟩ := hrecoverable
  have hentry : entry ∈ journal.entries := by
    rw [hentries]
    exact List.mem_append_right _ List.mem_cons_self
  unfold replace
  rcases hall entry hentry with ⟨file, hmade, hstaged⟩ | ⟨file, hmade, hnone, htarget⟩
  · left
    refine ⟨file, hstaged, ?_⟩
    rw [hstaged]
    dsimp only
    rw [if_pos hmade.2.1.symm]
  · right
    refine ⟨hnone, ?_⟩
    rw [hnone]
    dsimp only
    rw [htarget, Option.any_some, if_pos (beq_iff_eq.mpr hmade.2.1.symm)]

theorem Inv.go_replacing [DecidableEq δ] {entry : RotationJournalEntry δ}
    {todo : List (RotationJournalEntry δ)} (hvalid : rotation.Valid)
    (h : s.Inv rotation material used)
    (hcall : s.call = some ⟨rotating, .replacing (entry :: todo)⟩) :
    (s.replace rotation rotating entry todo).Inv rotation material used := by
  obtain ⟨journal, done, hjournal, hentries, hdone⟩ := h.call _ _ hcall
  have hentry : entry ∈ journal.entries := by
    rw [hentries]
    exact List.mem_append_right _ List.mem_cons_self
  have hsplit : journal.entries = (done ++ [entry]) ++ todo := by
    rw [hentries, List.append_assoc]
    rfl
  rcases h.replace_cases hcall with ⟨file, hfile, heq⟩ | ⟨hnone, heq⟩
  · rw [heq]
    have hrename := h.safe.current.rename hvalid hjournal hentry hfile
    obtain ⟨transaction, hnames⟩ := h.safe.current.stagedFile hjournal
    have hname := hnames entry hentry
    apply h.calling hcall h.drawn (h.safe.change_of_touches _ hrename)
    · rw [Directory.current_change]
      refine ⟨journal, done ++ [entry], ?_, hsplit, ?_⟩
      · rw [Change.apply_rename_ne (by rw [hname]; exact fun h => by cases h)
          (fun h => by cases h)]
        exact hjournal
      · intro other hother
        by_cases hsame : other.stagedFile = entry.stagedFile
        · rw [hsame]
          apply Change.apply_rename_source
          rw [hname]
          exact fun h => by cases h
        · have hold : other ∈ done := by
            rcases List.mem_append.mp hother with hold | hnew
            · exact hold
            · rw [List.mem_singleton.mp hnew] at hsame
              exact absurd rfl hsame
          have hmem : other ∈ journal.entries := by
            rw [hentries]
            exact List.mem_append_left _ hold
          have htarget : other.stagedFile ≠ .target entry.targetFile := by
            rw [hnames other hmem]
            exact fun h => by cases h
          rw [Change.apply_rename_ne hsame htarget]
          exact hdone other hold
    · rw [hname]
      rfl
  · rw [heq]
    apply h.calling hcall h.drawn h.safe
    refine ⟨journal, done ++ [entry], hjournal, hsplit, ?_⟩
    intro other hother
    rcases List.mem_append.mp hother with hold | hnew
    · exact hdone other hold
    · rw [List.mem_singleton.mp hnew]
      exact hnone

theorem Inv.go_replaced {todo : List (RotationJournalEntry δ)} (h : s.Inv rotation material used)
    (hcall : s.call = some ⟨rotating, .replaced todo⟩) :
    (s.sync rotating (.replacing todo)).Inv rotation material used := by
  have hreached : Phase.Reached rotation material used s.drawn s.dir.current (.replaced todo) :=
    h.call _ _ hcall
  apply h.calling hcall h.drawn h.sync
  rw [Directory.current_sync]
  exact hreached

/-- All entries have been replaced. -/
theorem Inv.uniform (h : s.Inv rotation material used)
    (hcall : s.call = some ⟨rotating, .replacing []⟩) :
    (∃ journal, s.dir.current .journal = some (.journal journal)) ∧
      Uniform rotation material s.dir.current rotation.newPassword := by
  obtain ⟨journal, done, hjournal, hentries, hdone⟩ := h.call _ _ hcall
  refine ⟨⟨journal, hjournal⟩, h.safe.current.uniform hjournal ?_⟩
  intro entry hentry
  rw [hentries, List.append_nil] at hentry
  exact hdone entry hentry

theorem Inv.go_removing (h : s.Inv rotation material used)
    (hcall : s.call = some ⟨rotating, .replacing []⟩) :
    (s.change rotating (.unlink .journal) .removed).Inv rotation material used := by
  have hunlink := unlink_journal (h.uniform hcall).2
  apply h.calling hcall h.drawn
  · apply h.safe.change_of_touches rfl
    unfold Recoverable
    rw [hunlink.1]
    exact .inr hunlink.2
  · rw [Directory.current_change]
    exact hunlink

theorem Inv.go_removed (h : s.Inv rotation material used)
    (hcall : s.call = some ⟨rotating, .removed⟩) :
    Sys.Inv rotation material used ⟨s.dir.sync, none, s.drawn, s.rotated || rotating⟩ := by
  have hreached : s.dir.current .journal = none ∧
      Uniform rotation material s.dir.current rotation.newPassword := h.call _ _ hcall
  refine ⟨h.drawn, h.sync, ?_, ?_⟩
  · intro rotating' phase heq
    cases heq
  · intro _
    exact ⟨rfl, Directory.safe_sync hreached⟩

theorem Inv.go_cleaning {name : Name} {names : List Name} (h : s.Inv rotation material used)
    (hcall : s.call = some ⟨rotating, .cleaning (name :: names)⟩) :
    (s.change rotating (.unlink name) (.cleaning names)).Inv rotation material used := by
  have hnames := h.call _ _ hcall
  obtain ⟨transaction, hunused, hname⟩ := hnames name List.mem_cons_self
  apply h.calling hcall h.drawn (h.safe_minor hunused hname).2
  intro other hother
  exact hnames other (List.mem_cons_of_mem _ hother)

/-- A step of the call that succeeds. -/
theorem Inv.go [DecidableEq δ] (hvalid : rotation.Valid) (h : s.Inv rotation material used)
    (hs : s.go rotation = some s') : ∃ used', s'.Inv rotation material used' := by
  unfold Sys.go at hs
  cases hcall : s.call with
  | none =>
    rw [hcall] at hs
    cases hs
  | some call =>
    obtain ⟨rotating, phase⟩ := call
    rw [hcall] at hs
    have hs := Option.some.inj hs
    subst hs
    cases phase with
    | staging transaction done todo =>
      cases todo with
      | nil => exact ⟨used, h.go_staged hcall⟩
      | cons p todo => exact ⟨used, h.go_staging hvalid hcall⟩
    | publishing transaction journal => exact ⟨_, h.go_publishing hcall⟩
    | published journal =>
      refine ⟨used, ?_⟩
      dsimp only
      split_ifs
      · exact h.go_published hcall
      · exact h.ended hcall h.sync
    | replacing todo =>
      cases todo with
      | cons entry todo => exact ⟨used, h.go_replacing hvalid hcall⟩
      | nil =>
        obtain ⟨⟨journal, hjournal⟩, -⟩ := h.uniform hcall
        refine ⟨used, ?_⟩
        dsimp only
        rw [hjournal, Option.isSome_some, if_pos rfl]
        exact h.go_removing hcall
    | replaced todo => exact ⟨used, h.go_replaced hcall⟩
    | removed => exact ⟨used, h.go_removed hcall⟩
    | cleaning names =>
      cases names with
      | nil => exact ⟨used, h.ended hcall h.safe⟩
      | cons name names => exact ⟨used, h.go_cleaning hcall⟩

/-- The way out of a transaction that has published nothing. -/
theorem Inv.clean {transaction : Uuid} {names : List Name} {dir : Directory Name (File δ)}
    (h : s.Inv rotation material used) (hcall : s.call = some ⟨rotating, phase⟩)
    (hunused : ¬ used transaction)
    (hsafe : dir.Safe Name.ordered (Recoverable rotation material used))
    (hnames : names = stagedNames rotation transaction ∨
      names = .temporary transaction :: stagedNames rotation transaction) :
    Sys.Inv rotation material used
      ⟨dir, some ⟨rotating, .cleaning names⟩, s.drawn, s.rotated⟩ := by
  apply h.calling hcall h.drawn hsafe
  have hstaged : ∀ name ∈ stagedNames rotation transaction,
      ∃ file, name = .staged file transaction := by
    intro name hname
    obtain ⟨file, -, heq⟩ := List.mem_map.mp hname
    exact ⟨file, heq.symm⟩
  intro name hname
  refine ⟨transaction, hunused, ?_⟩
  rcases hnames with rfl | rfl
  · exact .inr (hstaged name hname)
  · rcases List.mem_cons.mp hname with rfl | hname
    · exact .inl rfl
    · exact .inr (hstaged name hname)

/-- A step of the call that fails. -/
theorem Inv.fail {torn : Bool} (h : s.Inv rotation material used)
    (hs : s.fail rotation torn = some s') : s'.Inv rotation material used := by
  unfold Sys.fail at hs
  cases hcall : s.call with
  | none =>
    rw [hcall] at hs
    cases hs
  | some call =>
    obtain ⟨rotating, phase⟩ := call
    rw [hcall] at hs
    have hs := Option.some.inj hs
    subst hs
    cases phase with
    | staging transaction done todo =>
      obtain ⟨⟨hunused, -⟩, -⟩ := h.call _ _ hcall
      cases todo with
      | nil =>
        dsimp only
        split_ifs
        · exact h.clean hcall hunused ((h.safe_minor hunused (.inl rfl)).1 _) (.inr rfl)
        · exact h.clean hcall hunused h.safe (.inr rfl)
      | cons p todo =>
        obtain ⟨file, key⟩ := p
        dsimp only
        split_ifs
        · exact h.clean hcall hunused ((h.safe_minor hunused (.inr ⟨file, rfl⟩)).1 _) (.inl rfl)
        · exact h.clean hcall hunused h.safe (.inl rfl)
    | publishing transaction journal =>
      obtain ⟨⟨hunused, -⟩, -⟩ := h.call _ _ hcall
      exact h.clean hcall hunused h.safe (.inr rfl)
    | published journal => exact h.setCall_none
    | replacing todo => exact h.setCall_none
    | replaced todo => exact h.setCall_none
    | removed => exact h.setCall_none
    | cleaning names =>
      have hnames := h.call _ _ hcall
      cases names with
      | nil => exact h.setCall_none
      | cons name names =>
        apply h.calling hcall h.drawn h.safe
        intro other hother
        exact hnames other (List.mem_cons_of_mem _ hother)

theorem Inv.rotate {transaction : Uuid} {salt : String → ℕ} (hvalid : rotation.Valid)
    (h : s.Inv rotation material used) (hs : s.rotate rotation transaction salt = some s') :
    s'.Inv rotation material used := by
  unfold Sys.rotate at hs
  split at hs
  · cases hs
  · next hfree =>
    have hcall : s.call = none := by
      cases hcall : s.call with
      | none => rfl
      | some call => exact absurd (.inl (by rw [hcall]; rfl)) hfree
    have hjournal : s.dir.current .journal = none := by
      cases hjournal : s.dir.current .journal with
      | none => rfl
      | some file => exact absurd (.inr (.inr (by rw [hjournal]; rfl))) hfree
    have hnew : transaction ∉ s.drawn := fun hmem => hfree (.inr (.inl hmem))
    have hrecoverable := h.safe.current
    unfold Recoverable at hrecoverable
    rw [hjournal] at hrecoverable
    rcases hrecoverable with hcurrent | hchanged
    · rw [reencrypt_of_current hcurrent] at hs
      have hs := Option.some.inj hs
      subst hs
      refine ⟨?_, h.safe, ?_, ?_⟩
      · intro other hother
        exact List.mem_cons_of_mem _ (h.drawn other hother)
      · intro rotating phase heq
        cases heq
        refine ⟨⟨fun hused => hnew (h.drawn _ hused), List.mem_cons_self⟩, hjournal, hcurrent,
          ?_, ?_, ?_⟩
        · rw [List.map_nil, List.nil_append, List.map_map]
          exact List.map_id _
        · intro entry hentry
          cases hentry
        · intro p hp
          obtain ⟨file, -, heq⟩ := List.mem_map.mp hp
          rw [← heq]
          exact ⟨salt file, rfl⟩
      · intro hrotated
        have hchanged := (h.rotated hrotated).2.current.2
        have hnone := reencrypt_of_new hvalid hchanged salt
        rw [reencrypt_of_current hcurrent] at hnone
        cases hnone
    · rw [reencrypt_of_new hvalid hchanged] at hs
      rw [← Option.some.inj hs]
      exact h

variable [DecidableEq δ]

/-- A recovery finds no journal, or a valid one. -/
theorem Inv.recover_eq (hvalid : rotation.Valid) (h : s.Inv rotation material used)
    (hcall : s.call = none) :
    (s.dir.current .journal = none ∧ s.recover rotation = some s) ∨
    ∃ journal, s.dir.current .journal = some (.journal journal) ∧
      s.recover rotation = some (s.setCall (some ⟨false, .replacing journal.entries⟩)) := by
  have hrecoverable := h.safe.current
  unfold Sys.recover
  rw [hcall, Option.isSome_none, if_neg Bool.false_ne_true]
  cases hjournal : s.dir.current .journal with
  | none => exact .inl ⟨rfl, rfl⟩
  | some file =>
    cases file with
    | key material password salt =>
      unfold Recoverable at hrecoverable
      rw [hjournal] at hrecoverable
      exact hrecoverable.elim
    | torn =>
      unfold Recoverable at hrecoverable
      rw [hjournal] at hrecoverable
      exact hrecoverable.elim
    | journal journal =>
      right
      obtain ⟨hvalidate, hsome⟩ := validate_of_recoverable hvalid hrecoverable hjournal
      refine ⟨journal, rfl, ?_⟩
      dsimp only
      rw [hvalidate, hsome, Bool.and_self, if_pos rfl]

theorem Inv.recover (hvalid : rotation.Valid) (h : s.Inv rotation material used)
    (hs : s.recover rotation = some s') : s'.Inv rotation material used := by
  cases hcall : s.call with
  | some call =>
    unfold Sys.recover at hs
    rw [hcall, Option.isSome_some, if_pos rfl] at hs
    cases hs
  | none =>
    rcases h.recover_eq hvalid hcall with ⟨-, heq⟩ | ⟨journal, hjournal, heq⟩
    · rw [heq] at hs
      rw [← Option.some.inj hs]
      exact h
    · rw [heq] at hs
      rw [← Option.some.inj hs]
      refine ⟨h.drawn, h.safe, ?_, ?_⟩
      · intro rotating phase hphase
        cases hphase
        refine ⟨journal, [], hjournal, rfl, ?_⟩
        intro entry hentry
        cases hentry
      · intro hrotated
        have hnone := (h.rotated hrotated).2.current.1
        rw [hjournal] at hnone
        cases hnone

theorem Inv.step {a : Action} (hvalid : rotation.Valid) (h : s.Inv rotation material used)
    (hkeep : s.keepsOrder a) (hs : s.step rotation a = some s') :
    ∃ used', s'.Inv rotation material used' := by
  cases a with
  | rotate transaction salt => exact ⟨used, h.rotate hvalid hs⟩
  | recover => exact ⟨used, h.recover hvalid hs⟩
  | go => exact h.go hvalid hs
  | fail torn => exact ⟨used, h.fail hs⟩
  | kill =>
    rw [← Option.some.inj hs]
    exact ⟨used, h.setCall_none⟩
  | crash keep =>
    rw [← Option.some.inj hs]
    exact ⟨used, h.crash hkeep⟩

theorem run_cons {a : Action} {actions : List Action} {t : Sys δ}
    (hs : s.step rotation a = some t) (ht : t.run rotation actions = some s') :
    s.run rotation (a :: actions) = some s' := by
  unfold run at ht ⊢
  rw [List.foldlM_cons, hs]
  exact ht

/-- The rest of a recovery, without failures. -/
theorem Inv.finish {todo : List (RotationJournalEntry δ)} (hvalid : rotation.Valid)
    (h : s.Inv rotation material used) (hcall : s.call = some ⟨rotating, .replacing todo⟩) :
    ∃ k s', s.run rotation (List.replicate k .go) = some s' ∧ s'.call = none ∧
      s'.dir.current .journal = none ∧
      Uniform rotation material s'.dir.current rotation.newPassword := by
  induction todo generalizing s with
  | nil =>
    obtain ⟨⟨journal, hjournal⟩, huniform⟩ := h.uniform hcall
    have hgo : s.step rotation .go = some (s.change rotating (.unlink .journal) .removed) := by
      show s.go rotation = _
      unfold Sys.go
      rw [hcall]
      dsimp only
      rw [hjournal, Option.isSome_some, if_pos rfl]
    have hunlink := unlink_journal huniform
    refine ⟨2, _, run_cons hgo (run_cons rfl rfl), rfl, ?_, ?_⟩
    · show (s.dir.change (.unlink .journal)).current .journal = none
      rw [Directory.current_change]
      exact hunlink.1
    · show Uniform rotation material (s.dir.change (.unlink .journal)).current _
      rw [Directory.current_change]
      exact hunlink.2
  | cons entry todo ih =>
    have hgo : s.step rotation .go = some (s.replace rotation rotating entry todo) := by
      show s.go rotation = _
      unfold Sys.go
      rw [hcall]
    have hnext := h.go_replacing hvalid hcall
    rcases h.replace_cases hcall with ⟨file, -, heq⟩ | ⟨-, heq⟩
    · rw [heq] at hgo hnext
      have hsync := hnext.go_replaced rfl
      obtain ⟨k, s', hrun, hdone⟩ := ih hsync rfl
      exact ⟨k + 2, s', run_cons hgo (run_cons rfl hrun), hdone⟩
    · rw [heq] at hgo hnext
      obtain ⟨k, s', hrun, hdone⟩ := ih hnext rfl
      exact ⟨k + 1, s', run_cons hgo hrun, hdone⟩

end Sys

section
variable {δ : Type} [DecidableEq δ] {rotation : Rotation δ} {material : String → ℕ}
  {entries : Entries δ} {s : Sys δ}

theorem Sys.inv_of_reachable (hvalid : rotation.Valid) (hjournal : entries .journal = none)
    (hcurrent : Uniform rotation material entries rotation.currentPassword)
    (h : (machine rotation entries).ReachableWhere Sys.keepsOrder s) :
    ∃ used, s.Inv rotation material used := by
  apply h.invariant
  · refine ⟨fun _ => False, ?_, ?_, ?_, ?_⟩
    · intro transaction hused
      exact hused.elim
    · have hrecoverable : Recoverable rotation material (fun _ => False) entries := by
        unfold Recoverable
        rw [hjournal]
        exact .inl hcurrent
      have hsafe : (Directory.sync { durable := entries }).Safe Name.ordered
          (Recoverable rotation material fun _ => False) := Directory.safe_sync hrecoverable
      exact hsafe
    · intro rotating phase hcall
      cases hcall
    · intro hrotated
      cases hrotated
  · intro t a t' _ ht hkeep hs
    obtain ⟨used, hinv⟩ := ht
    exact hinv.step hvalid hkeep hs

/-- A recovery of whatever is there leaves all keys under one of the two passwords, and without a
journal. Once a rotation has returned, all keys are under the new password and stay so. -/
theorem recovers (hvalid : rotation.Valid) (hjournal : entries .journal = none)
    (hcurrent : Uniform rotation material entries rotation.currentPassword)
    (h : (machine rotation entries).ReachableWhere Sys.keepsOrder s) :
    (∃ k s', (s.setCall none).run rotation (.recover :: List.replicate k .go) = some s' ∧
      s'.call = none ∧ s'.dir.current .journal = none ∧
      (Uniform rotation material s'.dir.current rotation.currentPassword ∨
        Uniform rotation material s'.dir.current rotation.newPassword)) ∧
    (s.rotated = true →
      Uniform rotation material s.dir.current rotation.newPassword ∧
      ∀ keep, s.dir.Ordered Name.ordered keep →
        Uniform rotation material (s.dir.crash keep).durable rotation.newPassword) := by
  obtain ⟨used, hinv⟩ := Sys.inv_of_reachable hvalid hjournal hcurrent h
  constructor
  · have hidle := hinv.setCall_none
    rcases hidle.recover_eq hvalid rfl with ⟨hnone, heq⟩ | ⟨journal, -, heq⟩
    · have hrecoverable := hidle.safe.current
      unfold Recoverable at hrecoverable
      rw [hnone] at hrecoverable
      exact ⟨0, _, Sys.run_cons heq rfl, rfl, hnone, hrecoverable⟩
    · have hcalled := hidle.recover hvalid heq
      obtain ⟨k, s', hrun, hcall, hgone, huniform⟩ := hcalled.finish hvalid rfl
      exact ⟨k, s', Sys.run_cons heq hrun, hcall, hgone, .inr huniform⟩
  · intro hrotated
    have hsafe := (hinv.rotated hrotated).2
    exact ⟨hsafe.current.2, fun keep hkeep => (hsafe keep hkeep).2⟩

end

/-! Two keys, and files told apart by what is in them. -/

def sampleRotation : Rotation (ℕ × String × ℕ) where
  targets := ["management.key", "business.key"]
  currentPassword := "old password value"
  newPassword := "new password value"
  sha256
    | .key material password salt => (material, password, salt)
    | _ => (0, "", 0)

def sampleEntries : Entries (ℕ × String × ℕ)
  | .target "management.key" => some (.key 1 "old password value" 0)
  | .target "business.key" => some (.key 2 "old password value" 0)
  | _ => none

def sampleMaterial (file : String) : ℕ := if file = "management.key" then 1 else 2

theorem sampleRotation_valid : sampleRotation.Valid := by
  refine ⟨by decide, by decide, by decide, by decide, by decide⟩

theorem sampleEntries_uniform :
    Uniform sampleRotation sampleMaterial sampleEntries sampleRotation.currentPassword := by
  intro file hfile
  rcases List.mem_pair.mp hfile with rfl | rfl
  · exact ⟨0, rfl⟩
  · exact ⟨0, rfl⟩

/-- A rotation up to the rename of its journal. -/
def publishJournal : List Action := [.rotate 1 fun _ => 1, .go, .go, .go, .go]

/-- The journal survives the crash and so do the files before it; the recovery crashes as well. -/
def keptOrder : List Action :=
  publishJournal ++ [.crash [true, true, true, true], .recover, .go, .crash [false]]

/-- The journal survives the crash and one of the staged files does not. -/
def lostStaged : List Action := publishJournal ++ [.crash [false, true, true, true]]

/-- The sync after the second key fails, a recovery finds nothing left to replace, and the crash
keeps the removal of the journal but not the second key. -/
def lostKey : List Action :=
  publishJournal ++ [.go, .go, .go, .go, .fail false, .recover, .go, .go, .go,
    .crash [false, true]]

theorem recovers_keptOrder :
    ∃ s, (machine sampleRotation sampleEntries).execWhere Sys.keepsOrder keptOrder = some s ∧
      ∃ k s', (s.setCall none).run sampleRotation (.recover :: List.replicate k .go) = some s' ∧
        s'.call = none ∧ s'.dir.current .journal = none ∧
        (Uniform sampleRotation sampleMaterial s'.dir.current "old password value" ∨
          Uniform sampleRotation sampleMaterial s'.dir.current "new password value") := by
  have hrun : ((machine sampleRotation sampleEntries).execWhere Sys.keepsOrder keptOrder).map
      (fun s => (s.dir.current .journal).isSome) = some true := by
    decide
  obtain ⟨s, hs, -⟩ := Option.map_eq_some_iff.mp hrun
  have hall := recovers sampleRotation_valid rfl sampleEntries_uniform
    (Machine.reachableWhere_of_execWhere hs)
  exact ⟨s, hs, hall.1⟩

/-- A recovery that fails for ever, and keys under two passwords without a journal. -/
theorem not_recovers :
    (∃ s, (machine sampleRotation sampleEntries).Reachable s ∧
      ∀ k s', (s.setCall none).run sampleRotation (.recover :: List.replicate k .go) = some s' →
        s'.call = none → s'.dir.current .journal ≠ none) ∧
    ∃ s, (machine sampleRotation sampleEntries).Reachable s ∧ s.dir.current .journal = none ∧
      loadPrivateKey s.dir.current "management.key" "new password value" = some 1 ∧
      loadPrivateKey s.dir.current "business.key" "old password value" = some 2 := by
  constructor
  · have hrun : ((machine sampleRotation sampleEntries).exec lostStaged).map (fun s =>
        (((s.setCall none).run sampleRotation [.recover]).map (·.call.isSome),
          ((s.setCall none).run sampleRotation [.recover, .go]).map fun t =>
            (t.dir.current .journal).isSome,
          ((s.setCall none).run sampleRotation [.recover, .go, .go]).isSome)) =
        some (some true, some true, false) := by
      decide
    obtain ⟨s, hs, heq⟩ := Option.map_eq_some_iff.mp hrun
    simp only [Prod.mk.injEq] at heq
    obtain ⟨hzero, hone, htwo⟩ := heq
    refine ⟨s, Machine.reachable_of_exec hs, ?_⟩
    intro k s' hrun hcall
    match k with
    | 0 =>
      have hrun : (s.setCall none).run sampleRotation [.recover] = some s' := hrun
      rw [hrun, Option.map_some, hcall] at hzero
      cases hzero
    | 1 =>
      have hrun : (s.setCall none).run sampleRotation [.recover, .go] = some s' := hrun
      rw [hrun, Option.map_some] at hone
      intro hnone
      rw [hnone] at hone
      cases hone
    | k + 2 =>
      have hrun : (s.setCall none).run sampleRotation
          ([.recover, .go, .go] ++ List.replicate k .go) = some s' := hrun
      unfold Sys.run at hrun htwo
      rw [List.foldlM_append] at hrun
      obtain ⟨t, ht, -⟩ := Option.bind_eq_some_iff.mp hrun
      rw [ht] at htwo
      cases htwo
  · have hrun : ((machine sampleRotation sampleEntries).exec lostKey).map (fun s =>
        (s.dir.current .journal, loadPrivateKey s.dir.current "management.key" "new password value",
          loadPrivateKey s.dir.current "business.key" "old password value")) =
        some (none, some 1, some 2) := by
      decide
    obtain ⟨s, hs, heq⟩ := Option.map_eq_some_iff.mp hrun
    simp only [Prod.mk.injEq] at heq
    exact ⟨s, Machine.reachable_of_exec hs, heq⟩

end FlowSplice.KeyRotation
