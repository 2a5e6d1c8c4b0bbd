import Mathlib.Data.List.Basic
import Mathlib.Logic.Function.Basic

/-! A directory whose changes are durable only once it was synced. Files keep their contents; what
a crash may lose are the changes of entries, each on its own. -/

/-- A change of entries. A rename carries the file that it moves. -/
inductive Change (ν φ : Type*) where
  | link (name : ν) (file : φ)
  | unlink (name : ν)
  | rename (source target : ν) (file : φ)
deriving DecidableEq, Repr

namespace Change
variable {ν φ : Type*} [DecidableEq ν]

def apply (entries : ν → Option φ) : Change ν φ → ν → Option φ
  | link name file => Function.update entries name (some file)
  | unlink name => Function.update entries name none
  | rename source target file =>
    Function.update (Function.update entries source none) target (some file)

/-- The change is of one of these names. -/
def touches (names : ν → Bool) : Change ν φ → Bool
  | link name _ => names name
  | unlink name => names name
  | rename source target _ => names source || names target

@[simp] theorem apply_link_self (entries : ν → Option φ) (name : ν) (file : φ) :
    apply entries (link name file) name = some file := Function.update_self ..

theorem apply_link_ne {entries : ν → Option φ} {name other : ν} {file : φ} (h : other ≠ name) :
    apply entries (link name file) other = entries other := Function.update_of_ne h ..

@[simp] theorem apply_unlink_self (entries : ν → Option φ) (name : ν) :
    apply (φ := φ) entries (unlink name) name = none := Function.update_self ..

theorem apply_unlink_ne {entries : ν → Option φ} {name other : ν} (h : other ≠ name) :
    apply entries (unlink name) other = entries other := Function.update_of_ne h ..

@[simp] theorem apply_rename_target (entries : ν → Option φ) (source target : ν) (file : φ) :
    apply entries (rename source target file) target = some file := Function.update_self ..

theorem apply_rename_source {entries : ν → Option φ} {source target : ν} {file : φ}
    (h : source ≠ target) : apply entries (rename source target file) source = none := by
  show Function.update (Function.update entries source none) target (some file) source = none
  rw [Function.update_of_ne h, Function.update_self]

theorem apply_rename_ne {entries : ν → Option φ} {source target other : ν} {file : φ}
    (hs : other ≠ source) (ht : other ≠ target) :
    apply entries (rename source target file) other = entries other := by
  show Function.update (Function.update entries source none) target (some file) other = _
  rw [Function.update_of_ne ht, Function.update_of_ne hs]

theorem apply_of_not_touches {entries : ν → Option φ} {c : Change ν φ} {name : ν}
    (h : c.touches (· == name) = false) : c.apply entries name = entries name := by
  cases c with
  | link other file =>
    have hne : name ≠ other := fun heq => beq_eq_false_iff_ne.mp h heq.symm
    exact apply_link_ne hne
  | unlink other =>
    have hne : name ≠ other := fun heq => beq_eq_false_iff_ne.mp h heq.symm
    exact apply_unlink_ne hne
  | rename source target file =>
    have hnot := Bool.or_eq_false_iff.mp h
    have hsource : name ≠ source := fun heq => beq_eq_false_iff_ne.mp hnot.1 heq.symm
    have htarget : name ≠ target := fun heq => beq_eq_false_iff_ne.mp hnot.2 heq.symm
    exact apply_rename_ne hsource htarget

theorem foldl_apply_of_not_touches {changes : List (Change ν φ)} {entries : ν → Option φ} {name : ν}
    (h : ∀ c ∈ changes, c.touches (· == name) = false) :
    changes.foldl apply entries name = entries name := by
  induction changes generalizing entries with
  | nil => rfl
  | cons c changes ih =>
    have hrest : changes.foldl apply (c.apply entries) name = c.apply entries name :=
      ih fun d hd => h d (List.mem_cons_of_mem c hd)
    rw [List.foldl_cons, hrest]
    exact apply_of_not_touches (h c List.mem_cons_self)

end Change

/-- The entries on the disk, and the changes since the last sync. -/
structure Directory (ν φ : Type*) where
  durable : ν → Option φ
  pending : List (Change ν φ) := []

namespace Directory
variable {ν φ : Type*} [DecidableEq ν] {dir : Directory ν φ} {c : Change ν φ}
  {names : ν → Bool} {P Q : (ν → Option φ) → Prop} {keep : List Bool}

/-- The entries as processes see them. -/
def current (dir : Directory ν φ) : ν → Option φ := dir.pending.foldl Change.apply dir.durable

def change (dir : Directory ν φ) (c : Change ν φ) : Directory ν φ :=
  { dir with pending := dir.pending ++ [c] }

def sync (dir : Directory ν φ) : Directory ν φ := { durable := dir.current }

/-- The pending changes whose flag is set. Those without a flag are lost. -/
def kept (dir : Directory ν φ) (keep : List Bool) : List (Change ν φ) :=
  ((dir.pending.zip keep).filter (·.2)).map (·.1)

def crash (dir : Directory ν φ) (keep : List Bool) : Directory ν φ where
  durable := (dir.kept keep).foldl Change.apply dir.durable

/-- A change of one of the names is kept only together with all changes before it. -/
def Ordered (names : ν → Bool) (dir : Directory ν φ) (keep : List Bool) : Prop :=
  (dir.pending.zip keep).Pairwise fun before after =>
    after.2 = true → after.1.touches names = true → before.2 = true

instance (names : ν → Bool) (dir : Directory ν φ) (keep : List Bool) :
    Decidable (dir.Ordered names keep) := by
  unfold Ordered
  infer_instance

/-- What holds of the entries after any crash that is ordered. -/
def Safe (names : ν → Bool) (P : (ν → Option φ) → Prop) (dir : Directory ν φ) : Prop :=
  ∀ keep, dir.Ordered names keep → P (dir.crash keep).durable

@[simp] theorem current_change : (dir.change c).current = c.apply dir.current := by
  unfold current change
  rw [List.foldl_append]
  rfl

@[simp] theorem current_sync : dir.sync.current = dir.current := rfl

@[simp] theorem current_crash : (dir.crash keep).current = (dir.crash keep).durable := rfl

omit [DecidableEq ν] in
theorem kept_all (h : keep = dir.pending.map fun _ => true) : dir.kept keep = dir.pending := by
  subst h
  unfold kept
  induction dir.pending with
  | nil => rfl
  | cons c pending ih => exact congrArg (c :: ·) ih

omit [DecidableEq ν] in
theorem ordered_all : dir.Ordered names (dir.pending.map fun _ => true) := by
  unfold Ordered
  rw [List.pairwise_iff_forall_sublist]
  intro before after hsub _ _
  have hmem : before ∈ dir.pending.zip (dir.pending.map fun _ => true) :=
    hsub.subset (List.mem_cons_self)
  have hkeep := (List.of_mem_zip hmem).2
  obtain ⟨c, -, htrue⟩ := List.mem_map.mp hkeep
  exact htrue.symm

theorem Safe.current (h : dir.Safe names P) : P dir.current := by
  have hall := h _ ordered_all
  unfold crash at hall
  rw [kept_all rfl] at hall
  exact hall

theorem Safe.mono (h : dir.Safe names P) (hpq : ∀ entries, P entries → Q entries) :
    dir.Safe names Q := fun keep hkeep => hpq _ (h keep hkeep)

/-- Nothing is pending after a sync. -/
theorem safe_sync (h : P dir.current) : dir.sync.Safe names P := by
  intro keep _
  unfold crash kept sync
  rw [List.zip_nil_left]
  exact h

theorem safe_crash (h : dir.Safe names P) (hkeep : dir.Ordered names keep) :
    (dir.crash keep).Safe names P := by
  intro keep' _
  have hdurable : ((dir.crash keep).crash keep').durable = (dir.crash keep).durable := by
    unfold crash kept
    rw [List.zip_nil_left]
    rfl
  rw [hdurable]
  exact h keep hkeep

omit [DecidableEq ν] in
theorem zip_change (pending : List (Change ν φ)) :
    (pending ++ [c]).zip keep =
      pending.zip (keep.take pending.length) ++ [c].zip (keep.drop pending.length) := by
  induction pending generalizing keep with
  | nil => rfl
  | cons d pending ih =>
    cases keep with
    | nil => rfl
    | cons flag keep => exact congrArg ((d, flag) :: ·) ih

/-- All flags are set, and there is one for each change. -/
theorem crash_of_all (h : ∀ p ∈ dir.pending.zip keep, p.2 = true)
    (hlen : dir.pending.length ≤ keep.length) : (dir.crash keep).durable = dir.current := by
  have hkept : dir.kept keep = dir.pending := by
    unfold kept
    rw [List.filter_eq_self.mpr h]
    exact List.map_fst_zip hlen
  unfold crash current
  rw [hkept]

/-- What a crash makes of one more change: it is lost, or kept on top of the others. -/
theorem crash_change_cases (h : (dir.change c).Ordered names keep) :
    ∃ keep', dir.Ordered names keep' ∧
      (((dir.change c).crash keep).durable = (dir.crash keep').durable ∨
        ((dir.change c).crash keep).durable = c.apply (dir.crash keep').durable ∧
        (c.touches names = true → (dir.crash keep').durable = dir.current)) := by
  have hzip : (dir.pending ++ [c]).zip keep =
      dir.pending.zip (keep.take dir.pending.length) ++ [c].zip (keep.drop dir.pending.length) :=
    zip_change dir.pending
  have hordered : (dir.pending.zip (keep.take dir.pending.length) ++
      [c].zip (keep.drop dir.pending.length)).Pairwise fun before after =>
        after.2 = true → after.1.touches names = true → before.2 = true := by
    rw [← hzip]
    exact h
  obtain ⟨hbefore, -, hall⟩ := List.pairwise_append.mp hordered
  refine ⟨keep.take dir.pending.length, hbefore, ?_⟩
  cases hdrop : keep.drop dir.pending.length with
  | nil =>
    left
    unfold crash kept Directory.change
    rw [hzip, hdrop, List.zip_nil_right, List.append_nil]
  | cons flag rest =>
    have hlen : dir.pending.length ≤ (keep.take dir.pending.length).length := by
      have hlt : dir.pending.length < keep.length := by
        apply Nat.lt_of_not_le
        intro hle
        rw [List.drop_eq_nil_iff.mpr hle] at hdrop
        cases hdrop
      rw [List.length_take]
      omega
    cases flag with
    | false =>
      left
      unfold crash kept Directory.change
      rw [hzip, hdrop, List.filter_append, List.map_append]
      exact congrArg (fun l => l.foldl Change.apply dir.durable) (List.append_nil _)
    | true =>
      right
      constructor
      · unfold crash kept Directory.change
        rw [hzip, hdrop, List.filter_append, List.map_append, List.foldl_append]
        rfl
      · intro ht
        apply crash_of_all _ hlen
        intro p hp
        have hmem : (c, true) ∈ [c].zip (keep.drop dir.pending.length) := by
          rw [hdrop]
          exact List.mem_cons_self
        exact hall p hp (c, true) hmem rfl ht

/-- A change of other names is safe where it is safe on top of all that a crash may leave. -/
theorem Safe.change (h : dir.Safe names P) (hc : ∀ entries, P entries → P (c.apply entries)) :
    (dir.change c).Safe names P := by
  intro keep hkeep
  obtain ⟨keep', hkeep', heq | ⟨heq, -⟩⟩ := crash_change_cases hkeep
  · rw [heq]
    exact h keep' hkeep'
  · rw [heq]
    exact hc _ (h keep' hkeep')

/-- A change of the names themselves is safe where it is on top of the entries as they are. -/
theorem Safe.change_of_touches (h : dir.Safe names P) (ht : c.touches names = true)
    (hc : P (c.apply dir.current)) : (dir.change c).Safe names P := by
  intro keep hkeep
  obtain ⟨keep', hkeep', heq | ⟨heq, hall⟩⟩ := crash_change_cases hkeep
  · rw [heq]
    exact h keep' hkeep'
  · rw [heq, hall ht]
    exact hc

/-- A name that no pending change is of has the same file after any crash. -/
theorem crash_of_not_touches {name : ν} (h : ∀ c ∈ dir.pending, c.touches (· == name) = false) :
    (dir.crash keep).durable name = dir.current name := by
  have hkept : ∀ c ∈ dir.kept keep, c.touches (· == name) = false := by
    intro c hc
    unfold kept at hc
    have hmem := List.mem_map.mp hc
    obtain ⟨pair, hpair, rfl⟩ := hmem
    exact h pair.1 (List.of_mem_zip (List.mem_filter.mp hpair).1).1
  calc (dir.crash keep).durable name
    _ = dir.durable name := Change.foldl_apply_of_not_touches hkept
    _ = dir.current name := (Change.foldl_apply_of_not_touches h).symm

end Directory
