import Mathlib.Logic.Function.Basic
import FlowSplice.Lib.Log

/-! Values that are drawn in order under a lock, and published later by those who drew them. -/
namespace Publication
variable {κ α : Type*} [DecidableEq κ]

/-- A value is known by its ticket, the number of values drawn before it. -/
structure State (κ α : Type*) where
  drawn : List α
  pending : κ → Option ℕ
  published : List ℕ

namespace State
variable (s : State κ α)

def draw (k : κ) (a : α) : State κ α :=
  ⟨s.drawn ++ [a], Function.update s.pending k (some s.drawn.length), s.published⟩

def publish (k : κ) (i : ℕ) : State κ α :=
  ⟨s.drawn, Function.update s.pending k none, s.published ++ [i]⟩

/-- Nothing drawn later than a ticket has been published. -/
def InOrder (i : ℕ) : Prop := ∀ j ∈ s.published, j < i

end State

variable {s : State κ α} {k : κ} {a : α} {i : ℕ}

/-- What is drawn is pending or published, and what was published was published in order. -/
structure Inv (s : State κ α) : Prop where
  bound : ∀ j ∈ s.published, j < s.drawn.length
  pending : ∀ k j, s.pending k = some j → j < s.drawn.length
  complete : ∀ j < s.drawn.length, j ∈ s.published ∨ ∃ k, s.pending k = some j
  ordered : s.published.Pairwise (· < ·)

omit [DecidableEq κ] in
theorem Inv.initial : Inv (⟨[], fun _ => none, []⟩ : State κ α) := by
  constructor <;> simp

theorem Inv.draw (hi : Inv s) (hk : s.pending k = none) (a : α) : Inv (s.draw k a) := by
  have hlen : (s.draw k a).drawn.length = s.drawn.length + 1 := List.length_append
  constructor
  · intro j hj
    have hlt := hi.bound j hj
    omega
  · intro k' j hj
    rw [hlen]
    by_cases hkk : k' = k
    · subst hkk
      have heq : s.drawn.length = j := by simpa [State.draw] using hj
      omega
    · have hj : s.pending k' = some j := by simpa [State.draw, Function.update_of_ne hkk] using hj
      have hlt := hi.pending k' j hj
      omega
  · intro j hj
    rw [hlen] at hj
    rcases Nat.lt_succ_iff_lt_or_eq.mp hj with hlt | rfl
    · rcases hi.complete j hlt with hp | ⟨k', hp⟩
      · exact .inl hp
      · refine .inr ⟨k', ?_⟩
        have hkk : k' ≠ k := by
          rintro rfl
          simp [hk] at hp
        simpa [State.draw, Function.update_of_ne hkk] using hp
    · exact .inr ⟨k, by simp [State.draw]⟩
  · exact hi.ordered

theorem Inv.publish (hi : Inv s) (hk : s.pending k = some i) (ho : s.InOrder i) :
    Inv (s.publish k i) := by
  constructor
  · exact Log.forall_append hi.bound (hi.pending k i hk)
  · intro k' j hj
    by_cases hkk : k' = k
    · subst hkk
      simp [State.publish] at hj
    · exact hi.pending k' j (by simpa [State.publish, Function.update_of_ne hkk] using hj)
  · intro j hj
    rcases hi.complete j hj with hp | ⟨k', hp⟩
    · exact .inl (List.mem_append_left _ hp)
    · by_cases hkk : k' = k
      · subst hkk
        obtain rfl := Option.some.inj (hk.symm.trans hp)
        exact .inl Log.mem_append_self
      · exact .inr ⟨k', by simpa [State.publish, Function.update_of_ne hkk] using hp⟩
  · exact Log.pairwise_append hi.ordered ho

omit [DecidableEq κ] in
/-- Once nothing is pending, the value drawn last was published last. -/
theorem Inv.settled (hi : Inv s) (hidle : ∀ k, s.pending k = none) (hne : s.drawn ≠ []) :
    s.published.getLast? = some (s.drawn.length - 1) := by
  have hpos : 0 < s.drawn.length := List.length_pos_iff.mpr hne
  have hmem : s.drawn.length - 1 ∈ s.published := by
    rcases hi.complete (s.drawn.length - 1) (by omega) with hp | ⟨k, hp⟩
    · exact hp
    · simp [hidle k] at hp
  cases hl : s.published.getLast? with
  | none =>
    rw [List.getLast?_eq_none_iff.mp hl] at hmem
    cases hmem
  | some last =>
    have hlast := hi.bound last (List.mem_of_getLast? hl)
    have hle := Log.rel_of_getLast? hi.ordered hl hmem
    congr 1
    omega

omit [DecidableEq κ] in
/-- What holds between a value and those drawn later holds between what is published. -/
theorem Inv.rising {R : α → α → Prop} (hi : Inv s) (hR : s.drawn.Pairwise R) :
    s.published.Pairwise fun i j => ∀ a b, s.drawn[i]? = some a → s.drawn[j]? = some b → R a b := by
  refine hi.ordered.imp fun {i j} hij a b ha hb => ?_
  obtain ⟨hi', rfl⟩ := List.getElem?_eq_some_iff.mp ha
  obtain ⟨hj', rfl⟩ := List.getElem?_eq_some_iff.mp hb
  exact List.pairwise_iff_getElem.mp hR i j hi' hj' hij

end Publication
