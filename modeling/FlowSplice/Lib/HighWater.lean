import Mathlib.Logic.Relation
import Mathlib.Order.Basic
import FlowSplice.Lib.Log

/-! A high-water mark that lives in memory and in durable storage. The memory is lost with the
process and read back from storage. What the process takes as current is logged. -/
namespace HighWater

variable {α : Type*} [Preorder α]

structure State (α : Type*) where
  log : List α
  memory : Option α
  durable : Option α

/-- The moves. Storage may run ahead of memory, never behind it. -/
inductive Step (s : State α) : State α → Prop where
  | persist (m x : α) (hm : s.memory = some m) (h : m ≤ x) : Step s { s with durable := some x }
  | adopt (m d x : α) (hm : s.memory = some m) (hd : s.durable = some d) (h : m ≤ x)
      (hx : x ≤ d) : Step s { s with memory := some x, log := s.log ++ [x] }
  | note (m : α) (hm : s.memory = some m) : Step s { s with log := s.log ++ [m] }
  | lose : Step s { s with memory := none }
  | recover (x : α) (h : ∀ d, s.durable = some d → d ≤ x) :
      Step s { s with memory := some x, durable := some x }
  | restore (x : α) (hm : s.memory = none) (h : ∀ d, s.durable = some d → d ≤ x) :
      Step s { s with durable := some x }

abbrev Steps : State α → State α → Prop := Relation.ReflTransGen Step

/-- The log rises, and neither memory nor storage is behind it. -/
structure Inv (s : State α) : Prop where
  rising : s.log.Pairwise (· ≤ ·)
  memory : ∀ m, s.memory = some m → (∀ x ∈ s.log, x ≤ m) ∧ ∃ d, s.durable = some d ∧ m ≤ d
  durable : ∀ x ∈ s.log, ∃ d, s.durable = some d ∧ x ≤ d

variable {s s' : State α}

theorem Inv.initial (durable : Option α) : Inv ⟨[], none, durable⟩ :=
  ⟨.nil, fun _ hm => (by cases hm), fun _ hx => (by cases hx)⟩

theorem Inv.step (hi : Inv s) (h : Step s s') : Inv s' := by
  cases h with
  | persist m x hm h =>
    refine ⟨hi.rising, fun m' hm' => ?_, fun y hy => ⟨x, rfl, ((hi.memory m hm).1 y hy).trans h⟩⟩
    obtain rfl := Option.some.inj (hm.symm.trans hm')
    exact ⟨(hi.memory m hm).1, x, rfl, h⟩
  | adopt m d x hm hd h hx =>
    have hlog : ∀ y ∈ s.log, y ≤ x := fun y hy => ((hi.memory m hm).1 y hy).trans h
    refine ⟨Log.pairwise_append hi.rising hlog, fun m' hm' => ?_, fun y hy => ⟨d, hd, ?_⟩⟩
    · obtain rfl := Option.some.inj hm'
      exact ⟨fun y hy => Log.forall_append hlog le_rfl y hy, d, hd, hx⟩
    · exact (Log.forall_append hlog le_rfl y hy).trans hx
  | note m hm =>
    obtain ⟨hlog, d, hd, hle⟩ := hi.memory m hm
    refine ⟨Log.pairwise_append hi.rising hlog, fun m' hm' => ?_, fun y hy => ⟨d, hd, ?_⟩⟩
    · obtain rfl := Option.some.inj (hm.symm.trans hm')
      exact ⟨fun y hy => Log.forall_append hlog le_rfl y hy, d, hd, hle⟩
    · exact (Log.forall_append hlog le_rfl y hy).trans hle
  | lose => exact ⟨hi.rising, fun _ hm => (by cases hm), hi.durable⟩
  | recover x h =>
    have hlog : ∀ y ∈ s.log, y ≤ x := fun y hy => by
      obtain ⟨d, hd, hle⟩ := hi.durable y hy
      exact hle.trans (h d hd)
    refine ⟨hi.rising, fun m' hm' => ?_, fun y hy => ⟨x, rfl, hlog y hy⟩⟩
    obtain rfl := Option.some.inj hm'
    exact ⟨hlog, x, rfl, le_rfl⟩
  | restore x hm h =>
    refine ⟨hi.rising, fun m' hm' => by simp [hm] at hm', fun y hy => ⟨x, rfl, ?_⟩⟩
    obtain ⟨d, hd, hle⟩ := hi.durable y hy
    exact hle.trans (h d hd)

theorem Inv.steps (hi : Inv s) (h : Steps s s') : Inv s' := by
  induction h with
  | refl => exact hi
  | tail _ hst ih => exact ih.step hst

/-- A follower of a log is sent entries of it in their order, some of them again. -/
def Replays (log sent : List α) : Prop :=
  ∃ indices : List ℕ, indices.Pairwise (· ≤ ·) ∧ indices.map (log[·]?) = sent.map some

/-- What a follower of a rising log is sent rises. -/
theorem Replays.rising {log sent : List α} (h : Replays log sent)
    (hlog : log.Pairwise (· ≤ ·)) : sent.Pairwise (· ≤ ·) := by
  obtain ⟨indices, hindices, hmap⟩ := h
  have hlen : indices.length = sent.length := by simpa using congrArg List.length hmap
  have hget : ∀ k (hk : k < sent.length), log[indices[k]]? = some sent[k] := fun k hk => by
    have hk' : k < indices.length := hlen ▸ hk
    simpa [List.getElem?_eq_getElem hk, List.getElem?_eq_getElem hk'] using
      congrArg (·[k]?) hmap
  rw [List.pairwise_iff_getElem] at hindices hlog ⊢
  intro i j hi hj hij
  obtain ⟨hli, hi'⟩ := List.getElem?_eq_some_iff.mp (hget i hi)
  obtain ⟨hlj, hj'⟩ := List.getElem?_eq_some_iff.mp (hget j hj)
  rw [← hi', ← hj']
  rcases Nat.lt_or_eq_of_le (hindices i j (by omega) (by omega) hij) with hlt | heq
  · exact hlog _ _ hli hlj hlt
  · simp [heq]

omit [Preorder α] in
theorem Replays.mem {log sent : List α} (h : Replays log sent) {x : α} (hx : x ∈ sent) :
    x ∈ log := by
  obtain ⟨indices, -, hmap⟩ := h
  have hx : some x ∈ indices.map (log[·]?) := hmap ▸ List.mem_map_of_mem hx
  obtain ⟨i, -, hi⟩ := List.mem_map.mp hx
  exact List.mem_of_getElem? hi

end HighWater
