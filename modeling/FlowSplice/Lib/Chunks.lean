import Mathlib.Data.List.Infix

/-! Streams that are read chunk by chunk. Offsets count elements of the whole stream; a cut
is an offset at which one chunk ends, and a segment is a chunk with the offset where it starts. -/
namespace Chunks
variable {α : Type*} {reads reads' : List (List α)} {b bytes : List α} {n m o : ℕ}

/-- `n` elements are exactly the first few chunks. -/
def Cut (reads : List (List α)) (n : ℕ) : Prop :=
  ∃ done, done <+: reads ∧ n = done.flatten.length

/-- `bytes` is one chunk of the stream and starts at offset `o`. -/
def Segment (reads : List (List α)) (o : ℕ) (bytes : List α) : Prop :=
  ∃ done, done ++ [bytes] <+: reads ∧ o = done.flatten.length

/-- The chunks with their offsets, the first one starting at `o`. -/
def segmentsFrom (o : ℕ) : List (List α) → List (ℕ × List α)
  | [] => []
  | b :: bs => (o, b) :: segmentsFrom (o + b.length) bs

theorem Cut.mono (h : Cut reads n) (hp : reads <+: reads') : Cut reads' n := by
  obtain ⟨done, hd, hn⟩ := h
  exact ⟨done, hd.trans hp, hn⟩

theorem Segment.mono (h : Segment reads o b) (hp : reads <+: reads') : Segment reads' o b := by
  obtain ⟨done, hd, ho⟩ := h
  exact ⟨done, hd.trans hp, ho⟩

theorem cut_zero (reads : List (List α)) : Cut reads 0 :=
  ⟨[], List.nil_prefix, rfl⟩

theorem flatten_mono {done : List (List α)} (h : done <+: reads) :
    done.flatten <+: reads.flatten := by
  obtain ⟨rest, rfl⟩ := h
  simp

theorem Cut.le_length (h : Cut reads n) : n ≤ reads.flatten.length := by
  obtain ⟨done, hd, rfl⟩ := h
  exact (flatten_mono hd).length_le

theorem Segment.end_cut (h : Segment reads o b) : Cut reads (o + b.length) := by
  obtain ⟨done, hd, rfl⟩ := h
  exact ⟨done ++ [b], hd, by simp⟩

theorem Segment.mem (h : Segment reads o b) : b ∈ reads := by
  obtain ⟨done, hd, -⟩ := h
  exact hd.subset (by simp)

/-- A chunk that starts before a cut ends at or before it. -/
theorem Segment.end_le (h : Segment reads o b) (hc : Cut reads n) (hlt : o < n) :
    o + b.length ≤ n := by
  obtain ⟨done, hd, rfl⟩ := h
  obtain ⟨done', hd', rfl⟩ := hc
  rcases List.prefix_or_prefix_of_prefix hd hd' with hp | hp
  · have := (flatten_mono hp).length_le
    simpa using this
  · rcases List.prefix_concat_iff.mp hp with rfl | hp
    · simp
    · have := (flatten_mono hp).length_le
      omega

/-- What has been taken of the stream up to a segment, followed by the segment, is a prefix. -/
theorem Segment.append_prefix {taken : List α} (h : Segment reads taken.length b)
    (ht : taken <+: reads.flatten) : taken ++ b <+: reads.flatten := by
  obtain ⟨done, hd, ho⟩ := h
  have hdone : done.flatten <+: reads.flatten :=
    flatten_mono ((List.prefix_append _ _).trans hd)
  have heq : taken = done.flatten :=
    (List.prefix_of_prefix_length_le ht hdone ho.le).eq_of_length ho
  have := flatten_mono hd
  rw [heq]
  simpa using this

theorem segment_append_last (reads : List (List α)) (b : List α) :
    Segment (reads ++ [b]) reads.flatten.length b :=
  ⟨reads, List.prefix_refl _, rfl⟩

theorem segmentsFrom_append (o : ℕ) (bs : List (List α)) (b : List α) :
    segmentsFrom o (bs ++ [b]) = segmentsFrom o bs ++ [(o + bs.flatten.length, b)] := by
  induction bs generalizing o with
  | nil => simp [segmentsFrom]
  | cons c cs ih => simp [segmentsFrom, ih, Nat.add_assoc]

theorem segment_of_mem {done rest : List (List α)} (h : reads = done ++ rest)
    (hm : (m, b) ∈ segmentsFrom done.flatten.length rest) : Segment reads m b := by
  induction rest generalizing done with
  | nil => simp [segmentsFrom] at hm
  | cons c cs ih =>
    rcases List.mem_cons.mp hm with heq | hm
    · obtain ⟨rfl, rfl⟩ := Prod.mk.inj heq
      exact ⟨done, by rw [h]; simp, rfl⟩
    · refine @ih (done ++ [c]) (by simpa using h) ?_
      simpa using hm

/-- Dropping every segment that ends at or before a cut leaves the segments from that cut on. -/
theorem dropWhile_segmentsFrom {done rest : List (List α)} (h : reads = done ++ rest)
    (hc : Cut reads n) (hle : done.flatten.length ≤ n) :
    ∃ done' rest', reads = done' ++ rest' ∧ n = done'.flatten.length ∧
      (segmentsFrom done.flatten.length rest).dropWhile (fun p => p.1 + p.2.length ≤ n) =
        segmentsFrom n rest' := by
  induction rest generalizing done with
  | nil =>
    have hn : n = done.flatten.length := by
      have := hc.le_length
      rw [h, List.append_nil] at this
      omega
    exact ⟨done, [], h, hn, by simp [segmentsFrom]⟩
  | cons c cs ih =>
    by_cases hend : done.flatten.length + c.length ≤ n
    · obtain ⟨done', rest', h1, h2, h3⟩ := @ih (done ++ [c]) (by simpa using h)
        (by simpa using hend)
      refine ⟨done', rest', h1, h2, ?_⟩
      rw [← h3, segmentsFrom, List.dropWhile_cons_of_pos (by simpa using hend)]
      simp only [List.flatten_append, List.length_append, List.flatten_singleton]
    · have hseg : Segment reads done.flatten.length c := ⟨done, by rw [h]; simp, rfl⟩
      have hn : n = done.flatten.length := by
        by_contra hne
        exact hend (hseg.end_le hc (by omega))
      refine ⟨done, c :: cs, h, hn, ?_⟩
      rw [segmentsFrom, List.dropWhile_cons_of_neg (by simpa using hend), hn, segmentsFrom]

end Chunks
