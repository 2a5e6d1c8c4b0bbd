import Mathlib.Data.List.AList
import Mathlib.Data.List.MinMax
import Mathlib.Data.List.Nodup

/-! Records found by their keys: in a list whose keys differ, and in a table. -/
namespace Keyed
variable {α β κ : Type*}

/-- Where keys differ, the record of a key is found. -/
theorem find_iff [DecidableEq κ] {key : α → κ} {l : List α} (hn : (l.map key).Nodup) {k : κ} {a : α} :
    l.find? (key · == k) = some a ↔ a ∈ l ∧ key a = k := by
  constructor
  · intro h
    exact ⟨List.mem_of_find?_eq_some h, by simpa using List.find?_some h⟩
  · rintro ⟨ha, rfl⟩
    cases hf : l.find? (key · == key a) with
    | none =>
      have hne := List.find?_eq_none.mp hf a ha
      simp at hne
    | some b =>
      have hb : key b = key a := by simpa using List.find?_some hf
      exact congrArg some (List.inj_on_of_nodup_map hn (List.mem_of_find?_eq_some hf) ha hb)

/-- Where keys differ, a further condition is about the record that is found. -/
theorem find_and [DecidableEq κ] {key : α → κ} {l : List α} (hn : (l.map key).Nodup) {k : κ}
    {q : α → Bool} :
    l.find? (fun a => key a == k && q a) = (l.find? (key · == k)).filter q := by
  ext a
  rw [Option.filter_eq_some_iff, find_iff hn]
  constructor
  · intro h
    have hboth := List.find?_some h
    rw [Bool.and_eq_true, beq_iff_eq] at hboth
    exact ⟨⟨List.mem_of_find?_eq_some h, hboth.1⟩, hboth.2⟩
  · rintro ⟨⟨ha, hk⟩, hq⟩
    cases hf : l.find? fun a => key a == k && q a with
    | none =>
      have hne := List.find?_eq_none.mp hf a ha
      simp [hk, hq] at hne
    | some b =>
      have hboth := List.find?_some hf
      rw [Bool.and_eq_true, beq_iff_eq] at hboth
      have hkey : key b = key a := hboth.1.trans hk.symm
      exact congrArg some (List.inj_on_of_nodup_map hn (List.mem_of_find?_eq_some hf) ha hkey)

/-- Looking up the key of every record gives the records back. -/
theorem mapM_key {key : α → κ} {find : κ → Option α} {l : List α}
    (h : ∀ a ∈ l, find (key a) = some a) : (l.map key).mapM find = some l := by
  induction l with
  | nil => rfl
  | cons a l ih =>
    have htail := ih fun b hb => h b (List.mem_cons_of_mem _ hb)
    simp [h a List.mem_cons_self, htail]

/-- A look-up that succeeds everywhere is a map. -/
theorem mapM_eq_map {find : κ → Option α} {f : κ → α} {ks : List κ}
    (h : ∀ k ∈ ks, find k = some (f k)) : ks.mapM find = some (ks.map f) := by
  induction ks with
  | nil => rfl
  | cons k ks ih =>
    have htail := ih fun k' hk' => h k' (List.mem_cons_of_mem _ hk')
    simp [h k List.mem_cons_self, htail]

theorem mapM_eq_none {find : κ → Option α} {ks : List κ} {k : κ} (hk : k ∈ ks)
    (h : find k = none) : ks.mapM find = none := by
  induction ks with
  | nil => cases hk
  | cons k' ks ih =>
    rw [List.mapM_cons]
    rcases List.mem_cons.mp hk with rfl | hk
    · rw [h]
      rfl
    · rw [ih hk]
      cases find k' <;> rfl

theorem mem_of_mapM {find : κ → Option α} {ks : List κ} {l : List α}
    (h : ks.mapM find = some l) {a : α} (ha : a ∈ l) : ∃ k ∈ ks, find k = some a := by
  induction ks generalizing l with
  | nil =>
    have heq : [] = l := by simpa using h
    simp [← heq] at ha
  | cons k ks ih =>
    rw [List.mapM_cons] at h
    obtain ⟨b, hb, h⟩ := Option.bind_eq_some_iff.mp h
    obtain ⟨rest, hrest, heq⟩ := Option.bind_eq_some_iff.mp h
    obtain rfl : b :: rest = l := Option.some.inj heq
    rcases List.mem_cons.mp ha with rfl | ha
    · exact ⟨k, List.mem_cons_self, hb⟩
    · obtain ⟨k', hk', hfound⟩ := ih hrest ha
      exact ⟨k', List.mem_cons_of_mem _ hk', hfound⟩

/-- Of several greatest elements, the last. -/
def maxByKey (key : α → ℕ) (l : List α) : Option α := l.reverse.argmax key

theorem maxByKey_mem {key : α → ℕ} {l : List α} {a : α} (h : maxByKey key l = some a) : a ∈ l :=
  List.mem_reverse.mp (List.argmax_mem h)

theorem maxByKey_eq_none {key : α → ℕ} {l : List α} : maxByKey key l = none ↔ l = [] := by
  rw [maxByKey, List.argmax_eq_none, List.reverse_eq_nil_iff]

/-- What is picked from a list keeps its keys, in their order. -/
theorem sublist_map_filterMap {f : α → Option β} {key : β → κ} {key' : α → κ}
    {l : List α} (h : ∀ a ∈ l, ∀ b, f a = some b → key b = key' a) :
    ((l.filterMap f).map key).Sublist (l.map key') := by
  induction l with
  | nil => exact List.Sublist.refl _
  | cons a l ih =>
    have ih := ih fun a' ha' => h a' (List.mem_cons_of_mem a ha')
    cases hb : f a with
    | none =>
      rw [List.filterMap_cons_none hb]
      exact ih.cons _
    | some b =>
      rw [List.filterMap_cons_some hb, List.map_cons, h a (List.mem_cons_self ..) b hb]
      exact ih.cons_cons _

end Keyed

/-- A hash table. -/
abbrev Table (κ α : Type*) := AList fun _ : κ => α

namespace Table
variable {κ α β : Type*} {t : Table κ α} {k : κ} {a : α}

/-- `HashMap::retain`. -/
def retain (t : Table κ α) (p : κ → α → Bool) : Table κ α :=
  ⟨t.entries.filter fun e => p e.1 e.2, t.nodupKeys.sublist List.filter_sublist⟩

/-- Every value is replaced, under its key. -/
def mapValues (t : Table κ α) (f : κ → α → β) : Table κ β :=
  ⟨t.entries.map fun e => ⟨e.1, f e.1 e.2⟩, by
    have h := t.nodupKeys
    rwa [List.NodupKeys, List.keys, List.map_map]⟩

def values (t : Table κ α) : List α := t.entries.map (·.2)

/-- `HashMap::len`. -/
def len (t : Table κ α) : ℕ := t.entries.length

theorem len_retain_le {p : κ → α → Bool} : (t.retain p).len ≤ t.len :=
  List.length_filter_le _ _

variable [DecidableEq κ]

theorem len_erase_le : len (t.erase k) ≤ t.len := (List.kerase_sublist k t.entries).length_le

theorem len_insert_le : len (t.insert k a) ≤ t.len + 1 := by
  unfold len
  rw [AList.entries_insert, List.length_cons]
  have hle := (List.kerase_sublist k t.entries).length_le
  omega

theorem lookup_eq_some : t.lookup k = some a ↔ (⟨k, a⟩ : Sigma fun _ : κ => α) ∈ t.entries :=
  AList.mem_lookup_iff

theorem lookup_retain {p : κ → α → Bool} :
    (t.retain p).lookup k = (t.lookup k).filter (p k) := by
  ext a
  rw [lookup_eq_some, Option.filter_eq_some_iff, lookup_eq_some]
  exact List.mem_filter

theorem lookup_mapValues {f : κ → α → β} : (t.mapValues f).lookup k = (t.lookup k).map (f k) :=
  List.dlookup_map₂ k

theorem mem_values : a ∈ t.values ↔ ∃ k, t.lookup k = some a := by
  simp only [values, List.mem_map, lookup_eq_some]
  constructor
  · rintro ⟨⟨k, b⟩, hm, rfl⟩
    exact ⟨k, hm⟩
  · rintro ⟨k, hm⟩
    exact ⟨⟨k, a⟩, hm, rfl⟩

theorem lookup_insert_cases {k' : κ} {a' : α} (h : (t.insert k a).lookup k' = some a') :
    (k' = k ∧ a' = a) ∨ (k' ≠ k ∧ t.lookup k' = some a') := by
  by_cases hk : k' = k
  · subst hk
    rw [AList.lookup_insert] at h
    exact .inl ⟨rfl, (Option.some.inj h).symm⟩
  · rw [AList.lookup_insert_ne hk] at h
    exact .inr ⟨hk, h⟩

/-- What was found is found after an insertion, or was replaced by it. -/
theorem exists_lookup_insert {k' : κ} {b : α} (h : t.lookup k' = some b) :
    ∃ c, (t.insert k a).lookup k' = some c ∧ (k' = k ∧ c = a ∨ k' ≠ k ∧ c = b) := by
  by_cases hk : k' = k
  · subst hk
    exact ⟨a, AList.lookup_insert _, .inl ⟨rfl, rfl⟩⟩
  · exact ⟨b, by rwa [AList.lookup_insert_ne hk], .inr ⟨hk, rfl⟩⟩

theorem lookup_erase_cases {k' : κ} {a' : α} (h : (t.erase k).lookup k' = some a') :
    k' ≠ k ∧ t.lookup k' = some a' := by
  by_cases hk : k' = k
  · subst hk
    rw [AList.lookup_erase] at h
    cases h
  · rw [AList.lookup_erase_ne hk] at h
    exact ⟨hk, h⟩

theorem values_insert : values (t.insert k a) = a :: values (t.erase k) := by
  unfold values
  rw [AList.entries_insert]
  rfl

theorem values_erase_sublist : List.Sublist (values (t.erase k)) t.values :=
  (List.kerase_sublist k t.entries).map _

/-- Every entry of the list is put, in order. -/
def insertAll (t : Table κ α) (l : List (κ × α)) : Table κ α :=
  l.foldl (fun t e => t.insert e.1 e.2) t

theorem lookup_insertAll_of_notMem {l : List (κ × α)} (h : k ∉ l.map Prod.fst) :
    (t.insertAll l).lookup k = t.lookup k := by
  induction l generalizing t with
  | nil => rfl
  | cons e l ih =>
    rw [List.map_cons, List.mem_cons, not_or] at h
    have htail : (insertAll (t.insert e.1 e.2) l).lookup k = (t.insert e.1 e.2).lookup k := ih h.2
    show (insertAll (t.insert e.1 e.2) l).lookup k = t.lookup k
    rw [htail, AList.lookup_insert_ne h.1]

/-- A key that is put once is found with what was put. -/
theorem lookup_insertAll_of_mem {l : List (κ × α)} (hl : (l.map Prod.fst).Nodup)
    (h : (k, a) ∈ l) : (t.insertAll l).lookup k = some a := by
  induction l generalizing t with
  | nil => cases h
  | cons e l ih =>
    rw [List.map_cons, List.nodup_cons] at hl
    show (insertAll (t.insert e.1 e.2) l).lookup k = some a
    by_cases hmem : (k, a) ∈ l
    · exact ih hl.2 hmem
    · have heq : (k, a) = e := by simpa [hmem] using h
      subst heq
      rw [lookup_insertAll_of_notMem hl.1, AList.lookup_insert]

/-- A batch of writes: a value is put, or deleted where there is none. -/
def writeAll (t : Table κ α) (batch : List (κ × Option α)) : Table κ α :=
  batch.foldl (fun t e => e.2.elim (t.erase e.1) (t.insert e.1)) t

theorem lookup_writeAll_of_notMem {batch : List (κ × Option α)} (h : k ∉ batch.map Prod.fst) :
    (t.writeAll batch).lookup k = t.lookup k := by
  induction batch generalizing t with
  | nil => rfl
  | cons e batch ih =>
    rw [List.map_cons, List.mem_cons, not_or] at h
    obtain ⟨key, value⟩ := e
    cases value with
    | none =>
      have htail : (writeAll (t.erase key) batch).lookup k = (t.erase key).lookup k := ih h.2
      show (writeAll (t.erase key) batch).lookup k = t.lookup k
      rw [htail, AList.lookup_erase_ne h.1]
    | some b =>
      have htail : (writeAll (t.insert key b) batch).lookup k = (t.insert key b).lookup k := ih h.2
      show (writeAll (t.insert key b) batch).lookup k = t.lookup k
      rw [htail, AList.lookup_insert_ne h.1]

/-- A key that is written once is found with what was written. -/
theorem lookup_writeAll_of_mem {batch : List (κ × Option α)} {value : Option α}
    (hbatch : (batch.map Prod.fst).Nodup) (h : (k, value) ∈ batch) :
    (t.writeAll batch).lookup k = value := by
  induction batch generalizing t with
  | nil => cases h
  | cons e batch ih =>
    rw [List.map_cons, List.nodup_cons] at hbatch
    show (writeAll (e.2.elim (t.erase e.1) (t.insert e.1)) batch).lookup k = value
    by_cases hmem : (k, value) ∈ batch
    · exact ih hbatch.2 hmem
    · have heq : (k, value) = e := by simpa [hmem] using h
      subst heq
      rw [lookup_writeAll_of_notMem hbatch.1]
      cases value with
      | none => exact AList.lookup_erase _ _
      | some b => exact AList.lookup_insert _

/-- A batch that is made row by row from the table itself. -/
theorem lookup_writeAll_filterMap {rows : List (Sigma fun _ : κ => α)} (hrows : rows.Perm t.entries)
    {f : (Sigma fun _ : κ => α) → Option (κ × Option α)} (hf : ∀ row write, f row = some write →
      write.1 = row.1) :
    (t.writeAll (rows.filterMap f)).lookup k =
      (t.lookup k).bind fun a => (f ⟨k, a⟩).elim (some a) Prod.snd := by
  have hnodup : ((rows.filterMap f).map Prod.fst).Nodup := by
    have hsub : ((rows.filterMap f).map Prod.fst).Sublist (rows.map (·.1)) :=
      Keyed.sublist_map_filterMap fun row _ write h => hf row write h
    exact hsub.nodup ((hrows.map _).nodup_iff.mpr t.nodupKeys)
  have hmem : ∀ write ∈ rows.filterMap f, ∃ a, t.lookup write.1 = some a ∧
      f ⟨write.1, a⟩ = some write := by
    intro write hwrite
    obtain ⟨⟨key, a⟩, hrow, hf'⟩ := List.mem_filterMap.mp hwrite
    have hkey : write.1 = key := hf _ _ hf'
    rw [hkey]
    exact ⟨a, lookup_eq_some.mpr (hrows.mem_iff.mp hrow), hf'⟩
  have hother : (∀ a, t.lookup k = some a → f ⟨k, a⟩ = none) → k ∉ (rows.filterMap f).map Prod.fst := by
    intro hnone hk
    obtain ⟨write, hwrite, rfl⟩ := List.mem_map.mp hk
    obtain ⟨a, ha, hsome⟩ := hmem write hwrite
    rw [hnone a ha] at hsome
    cases hsome
  cases ha : t.lookup k with
  | none =>
    rw [lookup_writeAll_of_notMem (hother (by simp [ha])), ha]
    rfl
  | some a =>
    cases hwrite : f ⟨k, a⟩ with
    | none =>
      rw [lookup_writeAll_of_notMem (hother (by simp [ha, hwrite])), ha]
      simp [hwrite]
    | some write =>
      have hrow : (⟨k, a⟩ : Sigma fun _ : κ => α) ∈ rows := hrows.mem_iff.mpr (lookup_eq_some.mp ha)
      have hin : (k, write.2) ∈ rows.filterMap f := by
        have hkey : write.1 = k := hf _ _ hwrite
        rw [← hkey]
        exact List.mem_filterMap.mpr ⟨_, hrow, hwrite⟩
      rw [lookup_writeAll_of_mem hnodup hin]
      simp [hwrite]

/-- What the values of a table carry as their key is distinct, as long as it is their key. -/
theorem nodup_filterMap_values {f : α → Option β} {key : β → κ}
    (h : ∀ k a b, t.lookup k = some a → f a = some b → key b = k) :
    ((t.values.filterMap f).map key).Nodup := by
  have hsub : ((t.entries.filterMap fun e => f e.2).map key).Sublist t.entries.keys := by
    apply Keyed.sublist_map_filterMap
    intro e he b hb
    exact h e.1 e.2 b (lookup_eq_some.mpr he) hb
  have hvalues : t.values.filterMap f = t.entries.filterMap fun e => f e.2 :=
    List.filterMap_map ..
  rw [hvalues]
  exact hsub.nodup t.nodupKeys

end Table
