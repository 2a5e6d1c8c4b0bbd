import Mathlib.Data.List.Sort
import FlowSplice.Lib.Keyed

/-! The records of a table in the order of their keys. The order in which a table holds its entries
does not show in it. -/
namespace Table
variable {κ α ω : Type*} [LE ω] [DecidableLE ω]

/-- Every record carries the key it is found under. -/
def KeyedBy [DecidableEq κ] (t : Table κ α) (key : α → κ) : Prop :=
  ∀ k a, t.lookup k = some a → key a = k

/-- The records, sorted by the rank of their keys. -/
def listing (t : Table κ α) (key : α → κ) (rank : κ → ω) : List α :=
  t.values.insertionSort fun left right => rank (key left) ≤ rank (key right)

variable {t t' : Table κ α} {key : α → κ} {rank : κ → ω}

theorem listing_perm : (t.listing key rank).Perm t.values := List.perm_insertionSort _ _

theorem pairwise_le_listing [Std.IsLinearOrder ω] :
    (t.listing key rank).Pairwise fun left right => rank (key left) ≤ rank (key right) := by
  have htotal : Std.Total fun left right : α => rank (key left) ≤ rank (key right) :=
    ⟨fun left right => Std.le_total⟩
  have htrans : IsTrans α fun left right : α => rank (key left) ≤ rank (key right) :=
    ⟨fun _ _ _ h h' => Std.le_trans h h'⟩
  exact List.pairwise_insertionSort _ _

variable [DecidableEq κ]

theorem KeyedBy.empty : (∅ : Table κ α).KeyedBy key := by
  intro k a h
  rw [AList.lookup_empty] at h
  cases h

theorem KeyedBy.insert (h : t.KeyedBy key) (a : α) : KeyedBy (t.insert (key a) a) key := by
  intro k b hb
  rcases lookup_insert_cases hb with ⟨hk, hab⟩ | ⟨-, hb⟩
  · rw [hk, hab]
  · exact h k b hb

theorem KeyedBy.insertAll (h : t.KeyedBy key) (l : List α) :
    KeyedBy (t.insertAll (l.map fun a => (key a, a))) key := by
  induction l generalizing t with
  | nil => exact h
  | cons a l ih => exact ih (h.insert a)

theorem KeyedBy.erase (h : t.KeyedBy key) (k : κ) : KeyedBy (t.erase k) key := by
  intro k' a ha
  exact h k' a (lookup_erase_cases ha).2

/-- A record is listed where it is found. -/
theorem KeyedBy.mem_listing (h : t.KeyedBy key) {a : α} :
    a ∈ t.listing key rank ↔ t.lookup (key a) = some a := by
  rw [listing_perm.mem_iff, mem_values]
  constructor
  · rintro ⟨k, hk⟩
    have hkey := h k a hk
    rwa [hkey]
  · intro ha
    exact ⟨key a, ha⟩

theorem KeyedBy.nodup_listing (h : t.KeyedBy key) : ((t.listing key rank).map key).Nodup := by
  have hvalues : ((t.values.filterMap some).map key).Nodup := by
    apply nodup_filterMap_values
    intro k a b hlookup heq
    rw [← Option.some.inj heq]
    exact h k a hlookup
  rw [List.filterMap_some] at hvalues
  exact (listing_perm.map key).nodup_iff.mpr hvalues

/-- The keys rise, so that each is listed once. -/
theorem KeyedBy.pairwise_listing [LT ω] [Std.IsLinearOrder ω] [Std.LawfulOrderLT ω]
    (h : t.KeyedBy key) (hrank : rank.Injective) :
    ((t.listing key rank).map fun a => rank (key a)).Pairwise (· < ·) := by
  have hne : (t.listing key rank).Pairwise fun left right => key left ≠ key right :=
    List.pairwise_map.mp h.nodup_listing
  apply List.pairwise_map.mpr
  apply (pairwise_le_listing.and hne).imp
  intro left right hboth
  exact Std.lt_of_le_of_ne hboth.1 fun heq => hboth.2 (hrank heq)

/-- Tables list the same records exactly if they find the same. -/
theorem KeyedBy.listing_eq_iff [Std.IsLinearOrder ω] (h : t.KeyedBy key) (h' : t'.KeyedBy key)
    (hrank : rank.Injective) :
    t.listing key rank = t'.listing key rank ↔ ∀ k, t.lookup k = t'.lookup k := by
  constructor
  · intro heq k
    have hmem : ∀ a, a ∈ t.listing key rank ↔ a ∈ t'.listing key rank := by simp [heq]
    ext a
    constructor
    · intro ha
      have hk := h k a ha
      subst hk
      exact h'.mem_listing.mp ((hmem a).mp (h.mem_listing.mpr ha))
    · intro ha
      have hk := h' k a ha
      subst hk
      exact h.mem_listing.mp ((hmem a).mpr (h'.mem_listing.mpr ha))
  · intro heq
    have hmem : ∀ a, a ∈ t.listing key rank ↔ a ∈ t'.listing key rank := by
      intro a
      rw [h.mem_listing, h'.mem_listing, heq]
    have hperm : (t.listing key rank).Perm (t'.listing key rank) :=
      (List.perm_ext_iff_of_nodup h.nodup_listing.of_map h'.nodup_listing.of_map).mpr hmem
    apply hperm.eq_of_pairwise _ pairwise_le_listing pairwise_le_listing
    intro a b ha hb hle hge
    have hkey : key a = key b := hrank (Std.le_antisymm hle hge)
    have ha' := h.mem_listing.mp ha
    have hb' := h.mem_listing.mp ((hmem b).mpr hb)
    rw [hkey, hb'] at ha'
    exact (Option.some.inj ha').symm

end Table
