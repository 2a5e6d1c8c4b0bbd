import Mathlib.Logic.Relation
import Mathlib.Data.List.Basic

/-! Machines that move by a partial step function, and what holds along their runs.
A guard restricts a run to steps of which it holds in the state before the step. -/

/-- A start state and a step function; `none` means that the action is not enabled. -/
structure Machine (σ α : Type*) where
  start : σ
  step : σ → α → Option σ

namespace Machine
variable {σ α : Type*}

/-- One step by some action that meets the guard. -/
def StepWhere (M : Machine σ α) (ok : σ → α → Prop) (s s' : σ) : Prop :=
  ∃ a, ok s a ∧ M.step s a = some s'

/-- The states of the runs whose steps all meet the guard. -/
def ReachableWhere (M : Machine σ α) (ok : σ → α → Prop) (s : σ) : Prop :=
  Relation.ReflTransGen (M.StepWhere ok) M.start s

/-- The states of all runs. -/
def Reachable (M : Machine σ α) (s : σ) : Prop :=
  M.ReachableWhere (fun _ _ => True) s

/-- The run that takes the given actions in order. -/
def exec (M : Machine σ α) (as : List α) : Option σ :=
  as.foldlM M.step M.start

/-- The run that takes the given actions in order, as long as each meets the guard. -/
def execWhere (M : Machine σ α) (ok : σ → α → Prop) [∀ s a, Decidable (ok s a)]
    (as : List α) : Option σ :=
  as.foldlM (fun s a => if ok s a then M.step s a else none) M.start

variable {M : Machine σ α} {ok ok' : σ → α → Prop} {s s' : σ}

theorem ReachableWhere.tail {a : α} (h : M.ReachableWhere ok s) (ha : ok s a)
    (hs : M.step s a = some s') : M.ReachableWhere ok s' :=
  Relation.ReflTransGen.tail h ⟨a, ha, hs⟩

/-- What holds at the start and survives every guarded step holds in every state of the
guarded runs. The state before the step may be taken to be reachable itself. -/
theorem ReachableWhere.invariant {P : σ → Prop} (h : M.ReachableWhere ok s) (h0 : P M.start)
    (hstep : ∀ t a t', M.ReachableWhere ok t → P t → ok t a → M.step t a = some t' → P t') :
    P s := by
  induction h with
  | refl => exact h0
  | tail hr hst ih =>
    obtain ⟨a, ha, hs⟩ := hst
    exact hstep _ a _ hr ih ha hs

theorem Reachable.invariant {P : σ → Prop} (h : M.Reachable s) (h0 : P M.start)
    (hstep : ∀ t a t', P t → M.step t a = some t' → P t') : P s :=
  ReachableWhere.invariant h h0 fun t a t' _ hp _ hs => hstep t a t' hp hs

/-- A weaker guard admits more runs. -/
theorem ReachableWhere.mono (h : M.ReachableWhere ok s) (hok : ∀ t a, ok t a → ok' t a) :
    M.ReachableWhere ok' s :=
  Relation.ReflTransGen.mono (fun _ _ ⟨a, ha, hs⟩ => ⟨a, hok _ a ha, hs⟩) _ _ h

theorem ReachableWhere.reachable (h : M.ReachableWhere ok s) : M.Reachable s :=
  h.mono fun _ _ _ => trivial

private theorem reachableWhere_foldlM [∀ s a, Decidable (ok s a)] (as : List α) {t : σ}
    (ht : M.ReachableWhere ok t)
    (h : as.foldlM (fun s a => if ok s a then M.step s a else none) t = some s) :
    M.ReachableWhere ok s := by
  induction as generalizing t with
  | nil =>
    obtain rfl : t = s := by simpa using h
    exact ht
  | cons a as ih =>
    rw [List.foldlM_cons] at h
    obtain ⟨u, hu, h⟩ := Option.bind_eq_some_iff.mp h
    split_ifs at hu with ha
    exact ih (ht.tail ha hu) h

/-- A run that is carried out shows its last state reachable. -/
theorem reachableWhere_of_execWhere [∀ s a, Decidable (ok s a)] {as : List α}
    (h : M.execWhere ok as = some s) : M.ReachableWhere ok s :=
  reachableWhere_foldlM as .refl h

theorem reachable_of_exec {as : List α} (h : M.exec as = some s) : M.Reachable s := by
  have h : M.execWhere (fun _ _ => True) as = some s := by simpa [exec, execWhere] using h
  exact reachableWhere_of_execWhere h

end Machine
