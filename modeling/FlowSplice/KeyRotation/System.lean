import FlowSplice.Lib.Directory
import FlowSplice.Lib.Keyed
import FlowSplice.Lib.Machine
import FlowSplice.Protocol

/-! Rotation of the password of several private keys in one directory, and its recovery:
`flowsplice-enrollment/src/key.rs`. Each step is one change or sync of the directory. -/
namespace FlowSplice.KeyRotation

def rotationJournalVersion : ℕ := 1
def minPrivateKeyPasswordCharacters : ℕ := 12

/-- The names of the keys, of what a transaction stages and of the journal are different. A
transaction is also what its temporary journal is named after. -/
inductive Name where
  | target (file : String)
  | staged (file : String) (transaction : Uuid)
  | journal
  | temporary (transaction : Uuid)
deriving DecidableEq, Repr

structure RotationJournalEntry (δ : Type) where
  targetFile : String
  stagedFile : Name
  encryptedSha256 : δ
deriving DecidableEq, Repr

structure RotationJournal (δ : Type) where
  version : ℕ := rotationJournalVersion
  entries : List (RotationJournalEntry δ)
deriving DecidableEq, Repr

/-- A key is encrypted with a password and a salt of its own. Torn files were not synced. -/
inductive File (δ : Type) where
  | key (material : ℕ) (password : String) (salt : ℕ)
  | journal (journal : RotationJournal δ)
  | torn
deriving DecidableEq, Repr

/-- The arguments of `rotate_private_key_passwords`, and the digest of files. -/
structure Rotation (δ : Type) where
  targets : List String
  currentPassword : String
  newPassword : String
  sha256 : File δ → δ

/-- What the rotation checks of its arguments. -/
structure Rotation.Valid {δ : Type} (rotation : Rotation δ) : Prop where
  targets_ne : rotation.targets ≠ []
  nodup : rotation.targets.Nodup
  current_ne : rotation.currentPassword ≠ ""
  new_length : minPrivateKeyPasswordCharacters ≤ rotation.newPassword.length
  differ : rotation.currentPassword ≠ rotation.newPassword

abbrev Entries (δ : Type) := Name → Option (File δ)

inductive Phase (δ : Type) where
  /-- In `stage_rotation`: the files that are staged, and those still to be. -/
  | staging (transaction : Uuid) (done : List (RotationJournalEntry δ))
      (todo : List (String × File δ))
  /-- In `publish_rotation_journal`, before its rename and before its sync. -/
  | publishing (transaction : Uuid) (journal : RotationJournal δ)
  | published (journal : RotationJournal δ)
  /-- In `apply_rotation_journal`, before an entry, before its sync and after the journal. -/
  | replacing (todo : List (RotationJournalEntry δ))
  | replaced (todo : List (RotationJournalEntry δ))
  | removed
  /-- On the way out with an error, removing files. -/
  | cleaning (names : List Name)
deriving DecidableEq, Repr

structure Call (δ : Type) where
  rotating : Bool
  phase : Phase δ
deriving DecidableEq, Repr

/-- `drawn` logs the transactions, and `rotated` whether a rotation has returned `Ok`. -/
structure Sys (δ : Type) where
  dir : Directory Name (File δ)
  call : Option (Call δ) := none
  drawn : List Uuid := []
  rotated : Bool := false

inductive Action where
  | rotate (transaction : Uuid) (salt : String → ℕ)
  | recover
  | go
  | fail (torn : Bool)
  | kill
  | crash (keep : List Bool)

/-- `load_private_key`. -/
def loadPrivateKey {δ : Type} (entries : Entries δ) (file password : String) : Option ℕ :=
  match entries (.target file) with
  | some (.key material used _) => if used = password then some material else none
  | _ => none

section
variable {δ : Type} [DecidableEq δ] (rotation : Rotation δ)

/-- `validate_rotation_journal`. -/
def validateRotationJournal (journal : RotationJournal δ) : Bool :=
  journal.version == rotationJournalVersion &&
    journal.entries.length == rotation.targets.length &&
    journal.entries.all (fun entry => rotation.targets.contains entry.targetFile &&
      match entry.stagedFile with
      | .staged file _ => file == entry.targetFile
      | _ => false) &&
    decide (journal.entries.map (·.targetFile)).Nodup &&
    rotation.targets.all fun file => (journal.entries.map (·.targetFile)).contains file

/-- The keys of a rotation, decrypted and encrypted again. -/
def reencrypt (entries : Entries δ) (salt : String → ℕ) : Option (List (String × File δ)) :=
  rotation.targets.mapM fun file =>
    (loadPrivateKey entries file rotation.currentPassword).map fun material =>
      (file, .key material rotation.newPassword (salt file))

namespace Sys

def setCall (s : Sys δ) (call : Option (Call δ)) : Sys δ := { s with call := call }

/-- The call makes a change and goes on. -/
def change (s : Sys δ) (rotating : Bool) (c : Change Name (File δ)) (phase : Phase δ) : Sys δ :=
  { s with dir := s.dir.change c, call := some ⟨rotating, phase⟩ }

/-- The call has synced the directory and goes on. -/
def sync (s : Sys δ) (rotating : Bool) (phase : Phase δ) : Sys δ :=
  { s with dir := s.dir.sync, call := some ⟨rotating, phase⟩ }

/-- A rotation that finds no journal, or one that has been recovered, decrypts all keys. -/
def rotate (s : Sys δ) (transaction : Uuid) (salt : String → ℕ) : Option (Sys δ) :=
  if s.call.isSome ∨ transaction ∈ s.drawn ∨ (s.dir.current .journal).isSome then none
  else match reencrypt rotation s.dir.current salt with
    | none => some s
    | some todo => some { s with
        call := some ⟨true, .staging transaction [] todo⟩
        drawn := transaction :: s.drawn }

/-- `recover_resolved_rotation` of keys that are all regular files. -/
def recover (s : Sys δ) : Option (Sys δ) :=
  if s.call.isSome then none
  else match s.dir.current .journal with
    | some (.journal journal) =>
      if rotation.targets.all (fun file => (s.dir.current (.target file)).isSome) &&
          validateRotationJournal rotation journal then
        some (s.setCall (some ⟨false, .replacing journal.entries⟩))
      else some s
    | _ => some s

/-- One entry of the journal: its staged file replaces the key, or has done so. -/
def replace (s : Sys δ) (rotating : Bool) (entry : RotationJournalEntry δ)
    (todo : List (RotationJournalEntry δ)) : Sys δ :=
  match s.dir.current entry.stagedFile with
  | some file =>
    if rotation.sha256 file = entry.encryptedSha256 then
      s.change rotating (.rename entry.stagedFile (.target entry.targetFile) file) (.replaced todo)
    else s.setCall none
  | none =>
    if (s.dir.current (.target entry.targetFile)).any
        (fun file => rotation.sha256 file == entry.encryptedSha256) then
      s.setCall (some ⟨rotating, .replacing todo⟩)
    else s.setCall none

/-- The next step of the call succeeds. -/
def go (s : Sys δ) : Option (Sys δ) :=
  match s.call with
  | none => none
  | some ⟨rotating, phase⟩ => some <| match phase with
    | .staging transaction done ((file, key) :: todo) =>
      s.change rotating (.link (.staged file transaction) key)
        (.staging transaction
          (done ++ [⟨file, .staged file transaction, rotation.sha256 key⟩]) todo)
    | .staging transaction done [] =>
      s.change rotating (.link (.temporary transaction) (.journal { entries := done }))
        (.publishing transaction { entries := done })
    | .publishing transaction journal =>
      s.change rotating (.rename (.temporary transaction) .journal (.journal journal))
        (.published journal)
    | .published journal =>
      if validateRotationJournal rotation journal then s.sync rotating (.replacing journal.entries)
      else { s with dir := s.dir.sync, call := none }
    | .replacing (entry :: todo) => s.replace rotation rotating entry todo
    | .replaced todo => s.sync rotating (.replacing todo)
    | .replacing [] =>
      if (s.dir.current .journal).isSome then s.change rotating (.unlink .journal) .removed
      else { s with call := none, rotated := s.rotated || rotating }
    | .removed => { s with
        dir := s.dir.sync, call := none, rotated := s.rotated || rotating }
    | .cleaning (name :: names) => s.change rotating (.unlink name) (.cleaning names)
    | .cleaning [] => s.setCall none

/-- The staged files of a transaction. -/
def stagedNames (transaction : Uuid) : List Name :=
  rotation.targets.map fun file => .staged file transaction

/-- The next step of the call fails; a file that it was to create may be left torn. -/
def fail (s : Sys δ) (torn : Bool) : Option (Sys δ) :=
  match s.call with
  | none => none
  | some ⟨rotating, phase⟩ => some <| match phase with
    | .staging transaction _ ((file, _) :: _) =>
      let cleaning : Phase δ := .cleaning (stagedNames rotation transaction)
      if torn then s.change rotating (.link (.staged file transaction) .torn) cleaning
      else s.setCall (some ⟨rotating, cleaning⟩)
    | .staging transaction _ [] =>
      let cleaning : Phase δ :=
        .cleaning (.temporary transaction :: stagedNames rotation transaction)
      if torn then s.change rotating (.link (.temporary transaction) .torn) cleaning
      else s.setCall (some ⟨rotating, cleaning⟩)
    | .publishing transaction _ =>
      s.setCall (some
        ⟨rotating, .cleaning (.temporary transaction :: stagedNames rotation transaction)⟩)
    | .cleaning (_ :: names) => s.setCall (some ⟨rotating, .cleaning names⟩)
    | _ => s.setCall none

def step (s : Sys δ) : Action → Option (Sys δ)
  | .rotate transaction salt => s.rotate rotation transaction salt
  | .recover => s.recover rotation
  | .go => s.go rotation
  | .fail torn => s.fail rotation torn
  | .kill => some (s.setCall none)
  | .crash keep => some { s with dir := s.dir.crash keep, call := none }

/-- Nothing but steps of the call itself. -/
def run (s : Sys δ) (actions : List Action) : Option (Sys δ) := actions.foldlM (step rotation) s

end Sys

/-- A directory in which rotations start. -/
def machine (entries : Entries δ) : Machine (Sys δ) Action where
  start := { dir := { durable := entries } }
  step := Sys.step rotation

end

/-- The names whose changes are kept only after all changes before them. -/
def Name.ordered : Name → Bool
  | .target _ | .journal => true
  | _ => false

/-- A crash loses no change before one of a key or of the journal that it keeps. -/
def Sys.keepsOrder {δ : Type} (s : Sys δ) : Action → Prop
  | .crash keep => s.dir.Ordered Name.ordered keep
  | _ => True

instance {δ : Type} (s : Sys δ) (action : Action) : Decidable (s.keepsOrder action) :=
  match action with
  | .crash keep => inferInstanceAs (Decidable (s.dir.Ordered Name.ordered keep))
  | .rotate _ _ | .recover | .go | .fail _ | .kill => inferInstanceAs (Decidable True)

end FlowSplice.KeyRotation
