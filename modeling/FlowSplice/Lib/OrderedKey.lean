import Mathlib.Data.List.Sort
import FlowSplice.Lib.BigEndian
import FlowSplice.Lib.Keyed

/-! Keys that are a number and parts of any bytes, each part behind its length. Equal keys are made of
equal parts, and keys compare bytewise as their numbers do. -/
namespace BigEndian
variable {w n m : ℕ} {a b rest rest' : List UInt8}

theorem toBytes_inj (hn : n < 256 ^ w) (hm : m < 256 ^ w) (h : toBytes w n = toBytes w m) : n = m := by
  have hread := congrArg ofBytes h
  rwa [ofBytes_toBytes hn, ofBytes_toBytes hm] at hread

/-- Bytes that differ decide, whatever follows. -/
theorem append_lt_append (hlen : a.length = b.length) (h : a < b) : a ++ rest < b ++ rest' := by
  induction a generalizing b with
  | nil =>
    have hb : b = [] := List.eq_nil_of_length_eq_zero hlen.symm
    subst hb
    exact absurd h (List.lt_irrefl [])
  | cons x a ih =>
    cases b with
    | nil => cases hlen
    | cons y b =>
      rw [List.length_cons, List.length_cons, Nat.add_right_cancel_iff] at hlen
      rw [List.cons_append, List.cons_append, List.cons_lt_cons_iff]
      rcases List.cons_lt_cons_iff.mp h with hlt | ⟨heq, hlt⟩
      · exact .inl hlt
      · exact .inr ⟨heq, ih hlen hlt⟩

/-- Of two numbers that fit, the bytes of the lower one come first. -/
theorem toBytes_lt (h : n < m) (hm : m < 256 ^ w) : toBytes w n < toBytes w m := by
  induction w generalizing n m with
  | zero =>
    have hzero : m = 0 := by simpa using hm
    omega
  | succ w ih =>
    rw [Nat.pow_succ] at hm
    rw [toBytes, toBytes]
    by_cases hdiv : n / 256 < m / 256
    · have hbound : m / 256 < 256 ^ w := by omega
      exact append_lt_append (by simp) (ih hdiv hbound)
    · have heq : n / 256 = m / 256 := by omega
      rw [heq]
      apply List.append_left_lt
      rw [List.cons_lt_cons_iff]
      left
      rw [UInt8.lt_iff_toNat_lt, UInt8.toNat_ofNat', UInt8.toNat_ofNat']
      omega

end BigEndian

namespace OrderedKey
open BigEndian
variable {parts parts' : List (List UInt8)} {number number' w v : ℕ}

/-- A part behind its length. -/
def piece (w : ℕ) (part : List UInt8) : List UInt8 := toBytes w part.length ++ part

/-- The number leads. -/
def encode (v w : ℕ) (number : ℕ) (parts : List (List UInt8)) : List UInt8 :=
  toBytes v number ++ parts.flatMap (piece w)

theorem flatMap_piece_inj (hparts : ∀ part ∈ parts, part.length < 256 ^ w)
    (hparts' : ∀ part ∈ parts', part.length < 256 ^ w) (hw : 0 < w)
    (h : parts.flatMap (piece w) = parts'.flatMap (piece w)) : parts = parts' := by
  induction parts generalizing parts' with
  | nil =>
    cases parts' with
    | nil => rfl
    | cons part' parts' =>
      have hlen := congrArg List.length h
      simp [piece] at hlen
      omega
  | cons part parts ih =>
    cases parts' with
    | nil =>
      have hlen := congrArg List.length h
      simp [piece] at hlen
      omega
    | cons part' parts' =>
      simp only [List.flatMap_cons, piece, List.append_assoc] at h
      have hhead := List.append_inj h (by simp)
      have hlen : part.length = part'.length := toBytes_inj (hparts part List.mem_cons_self)
        (hparts' part' List.mem_cons_self) hhead.1
      have htail := List.append_inj hhead.2 hlen
      have hrest : parts = parts' := ih (fun p hp => hparts p (List.mem_cons_of_mem _ hp))
        (fun p hp => hparts' p (List.mem_cons_of_mem _ hp)) htail.2
      rw [htail.1, hrest]

theorem encode_inj (hnumber : number < 256 ^ v) (hnumber' : number' < 256 ^ v)
    (hparts : ∀ part ∈ parts, part.length < 256 ^ w)
    (hparts' : ∀ part ∈ parts', part.length < 256 ^ w) (hw : 0 < w)
    (h : encode v w number parts = encode v w number' parts') :
    number = number' ∧ parts = parts' := by
  have hsplit := List.append_inj h (by simp)
  have heq : number = number' := toBytes_inj hnumber hnumber' hsplit.1
  exact ⟨heq, flatMap_piece_inj hparts hparts' hw hsplit.2⟩

theorem encode_lt (h : number < number') (hnumber' : number' < 256 ^ v) :
    encode v w number parts < encode v w number' parts' :=
  append_lt_append (by simp) (toBytes_lt h hnumber')

/-- The keys between the bytes of two numbers are those whose number is. -/
theorem encode_between {start stop : ℕ} (hnumber : number < 256 ^ v) (hstart : start < 256 ^ v)
    (hstop : stop < 256 ^ v) :
    toBytes v start ≤ encode v w number parts ∧ encode v w number parts < toBytes v stop ↔
      start ≤ number ∧ number < stop := by
  have hlow : ∀ bound, bound < 256 ^ v → (encode v w number parts < toBytes v bound ↔
      number < bound) := by
    intro bound hbound
    constructor
    · intro hlt
      by_contra hle
      rcases Nat.lt_or_eq_of_le (Nat.le_of_not_lt hle) with hgt | heq
      · have hgt' : toBytes v bound ++ [] < encode v w number parts :=
          append_lt_append (by simp) (toBytes_lt hgt hnumber)
        rw [List.append_nil] at hgt'
        exact List.lt_irrefl _ (List.lt_trans hlt hgt')
      · subst heq
        have hle : toBytes v bound ≤ encode v w bound parts :=
          List.le_append_left
        exact List.lt_irrefl _ (Std.lt_of_lt_of_le hlt hle)
    · intro hlt
      have h : encode v w number parts < toBytes v bound ++ [] :=
        append_lt_append (by simp) (toBytes_lt hlt hbound)
      rwa [List.append_nil] at h
  rw [hlow stop hstop, ← List.not_lt, hlow start hstart, Nat.not_lt]

/-- The keys that begin with the bytes of a number are those whose number it is. -/
theorem prefix_encode {first : ℕ} (hnumber : number < 256 ^ v) (hfirst : first < 256 ^ v) :
    toBytes v first <+: encode v w number parts ↔ number = first := by
  constructor
  · rintro ⟨rest, hrest⟩
    have hsplit := List.append_inj hrest (by simp)
    exact (toBytes_inj hfirst hnumber hsplit.1).symm
  · rintro rfl
    exact ⟨_, rfl⟩

end OrderedKey

/-- Look-ups that agree on a list agree on the whole of it. -/
theorem Keyed.mapM_congr {α β : Type*} {f g : α → Option β} {l : List α}
    (h : ∀ a ∈ l, f a = g a) : l.mapM f = l.mapM g := by
  induction l with
  | nil => rfl
  | cons a l ih =>
    have htail := ih fun b hb => h b (List.mem_cons_of_mem _ hb)
    rw [List.mapM_cons, List.mapM_cons, h a List.mem_cons_self, htail]

/-! A table whose rows are under the bytes of their keys, and the table of the keys themselves. -/
namespace Table
variable {κ ρ α : Type*} [DecidableEq κ] [DecidableEq ρ] {rows : Table ρ α} {table : Table κ α}
  {row : κ → Option ρ}

/-- The same is found under the row of a key as under the key, and nothing else is stored. -/
structure StoredBy (rows : Table ρ α) (table : Table κ α) (row : κ → Option ρ) : Prop where
  find : ∀ k r, row k = some r → rows.lookup r = table.lookup k
  stored : ∀ r a, rows.lookup r = some a → ∃ k, row k = some r ∧ table.lookup k = some a
  keyed : ∀ k a, table.lookup k = some a → ∃ r, row k = some r

theorem StoredBy.empty : StoredBy (∅ : Table ρ α) (∅ : Table κ α) row where
  find _ _ _ := rfl
  stored r a h := by cases h
  keyed k a h := by cases h

/-- Different keys have different rows. -/
def Separates (row : κ → Option ρ) : Prop :=
  ∀ k k' r, row k = some r → row k' = some r → k = k'

theorem StoredBy.insert (h : StoredBy rows table row) (hrow : Separates row) {k : κ} {r : ρ} (a : α)
    (hk : row k = some r) : StoredBy (rows.insert r a) (table.insert k a) row := by
  constructor
  · intro k' r' hk'
    by_cases hsame : r' = r
    · subst hsame
      have hkey : k' = k := hrow k' k r' hk' hk
      rw [hkey, AList.lookup_insert, AList.lookup_insert]
    · have hkey : k' ≠ k := by
        rintro rfl
        rw [hk'] at hk
        exact hsame (Option.some.inj hk)
      rw [AList.lookup_insert_ne hsame, AList.lookup_insert_ne hkey]
      exact h.find k' r' hk'
  · intro r' b hb
    rcases lookup_insert_cases hb with ⟨hr, hab⟩ | ⟨hne, hold⟩
    · refine ⟨k, ?_, ?_⟩
      · rw [hr, hk]
      · rw [AList.lookup_insert, hab]
    · obtain ⟨k', hk', hlookup⟩ := h.stored r' b hold
      have hkey : k' ≠ k := by
        rintro rfl
        rw [hk'] at hk
        exact hne (Option.some.inj hk)
      exact ⟨k', hk', by rwa [AList.lookup_insert_ne hkey]⟩
  · intro k' b hb
    rcases lookup_insert_cases hb with ⟨hkey, -⟩ | ⟨-, hold⟩
    · exact ⟨r, by rw [hkey, hk]⟩
    · exact h.keyed k' b hold

/-- A batch of rows is the batch of their keys. -/
theorem StoredBy.insertAll (h : StoredBy rows table row) (hrow : Separates row) {key : α → κ}
    {batch : List α} {written : List (ρ × α)}
    (hwritten : batch.mapM (fun a => (row (key a)).map fun r => (r, a)) = some written) :
    StoredBy (rows.insertAll written) (table.insertAll (batch.map fun a => (key a, a))) row := by
  induction batch generalizing rows table written with
  | nil =>
    have hnil : [] = written := by simpa using hwritten
    subst hnil
    exact h
  | cons a batch ih =>
    rw [List.mapM_cons] at hwritten
    obtain ⟨first, hfirst, hwritten⟩ := Option.bind_eq_some_iff.mp hwritten
    obtain ⟨rest, hrest, heq⟩ := Option.bind_eq_some_iff.mp hwritten
    obtain ⟨r, hr, rfl⟩ := Option.map_eq_some_iff.mp hfirst
    have hcons : (r, a) :: rest = written := Option.some.inj heq
    subst hcons
    exact ih (h.insert hrow a hr) hrest

end Table
