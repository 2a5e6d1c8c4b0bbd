import Mathlib.Data.List.Infix
import Mathlib.Data.Nat.Notation

/-! Compact JSON texts of strings and of objects whose values are strings. Each text tells where it
ends, so that texts behind one another are told apart. -/
namespace JsonText
variable {a b rest rest' : List UInt8}

/-- A code unit under which no text begins another. -/
def PrefixFree {α : Type*} (code : α → List UInt8) : Prop :=
  ∀ a b, code a <+: code b → a = b

theorem PrefixFree.append_inj {α : Type*} {code : α → List UInt8} (hcode : PrefixFree code) {a b : α}
    (h : code a ++ rest = code b ++ rest') : a = b ∧ rest = rest' := by
  have hab : a = b := by
    rcases List.prefix_or_prefix_of_prefix (List.prefix_append (code a) rest)
      (h ▸ List.prefix_append (code b) rest') with hle | hle
    · exact hcode a b hle
    · exact (hcode b a hle).symm
  subst hab
  exact ⟨rfl, List.append_cancel_left h⟩

def hexDigit (n : UInt8) : UInt8 := if n < 10 then 0x30 + n else 0x57 + n

/-- The bytes that are escaped: the quotation mark, the backslash and control characters. -/
def special : List UInt8 := 0x22 :: 0x5c :: (List.range 32).map UInt8.ofNat

def escape (b : UInt8) : List UInt8 :=
  if b ∉ special then [b]
  else if b = 0x22 then [0x5c, 0x22]
  else if b = 0x5c then [0x5c, 0x5c]
  else if b = 0x08 then [0x5c, 0x62]
  else if b = 0x09 then [0x5c, 0x74]
  else if b = 0x0a then [0x5c, 0x6e]
  else if b = 0x0c then [0x5c, 0x66]
  else if b = 0x0d then [0x5c, 0x72]
  else [0x5c, 0x75, 0x30, 0x30, hexDigit (b / 16), hexDigit (b % 16)]

theorem escape_special : ∀ b ∈ special, (escape b).head? = some 0x5c := by decide +kernel

theorem escape_special_prefix : ∀ a ∈ special, ∀ b ∈ special, escape a <+: escape b → a = b := by
  decide +kernel

theorem escape_of_notMem {b : UInt8} (h : b ∉ special) : escape b = [b] := if_pos h

theorem escape_prefixFree : PrefixFree escape := by
  intro a b h
  by_cases ha : a ∈ special
  · by_cases hb : b ∈ special
    · exact escape_special_prefix a ha b hb h
    · rw [escape_of_notMem hb] at h
      have hhead := escape_special a ha
      cases hcode : escape a with
      | nil => simp [hcode] at hhead
      | cons x code =>
        rw [hcode] at h hhead
        have hx : x = b := (List.cons_prefix_cons.mp h).1
        have hslash : x = 0x5c := Option.some.inj hhead
        rw [← hx, hslash] at hb
        exact absurd (by decide) hb
  · rw [escape_of_notMem ha] at h
    by_cases hb : b ∈ special
    · have hhead := escape_special b hb
      obtain ⟨code, hcode⟩ := h
      rw [← hcode] at hhead
      have hslash : a = 0x5c := Option.some.inj hhead
      rw [hslash] at ha
      exact absurd (by decide) ha
    · rw [escape_of_notMem hb] at h
      exact (List.cons_prefix_cons.mp h).1

theorem escape_head (b : UInt8) : ∃ x code, escape b = x :: code ∧ x ≠ 0x22 := by
  by_cases hb : b ∈ special
  · have hhead := escape_special b hb
    cases hcode : escape b with
    | nil => simp [hcode] at hhead
    | cons x code =>
      rw [hcode] at hhead
      have hslash : x = 0x5c := Option.some.inj hhead
      exact ⟨x, code, rfl, by rw [hslash]; decide⟩
  · refine ⟨b, [], escape_of_notMem hb, ?_⟩
    rintro rfl
    exact hb (by decide)

/-- A string behind its opening quotation mark. -/
def closed (s : List UInt8) : List UInt8 := s.flatMap escape ++ [0x22]

theorem closed_append_inj (h : closed a ++ rest = closed b ++ rest') : a = b ∧ rest = rest' := by
  induction a generalizing b with
  | nil =>
    cases b with
    | nil => exact ⟨rfl, List.append_cancel_left h⟩
    | cons y b =>
      obtain ⟨x, code, hcode, hx⟩ := escape_head y
      simp only [closed, List.flatMap_nil, List.flatMap_cons, hcode] at h
      exact absurd (List.cons.inj h).1.symm hx
  | cons y a ih =>
    cases b with
    | nil =>
      obtain ⟨x, code, hcode, hx⟩ := escape_head y
      simp only [closed, List.flatMap_nil, List.flatMap_cons, hcode] at h
      exact absurd (List.cons.inj h).1 hx
    | cons z b =>
      have hsplit : escape y ++ (closed a ++ rest) = escape z ++ (closed b ++ rest') := by
        simpa [closed] using h
      obtain ⟨hyz, htail⟩ := escape_prefixFree.append_inj hsplit
      obtain ⟨hab, hrest⟩ := ih htail
      rw [hyz, hab]
      exact ⟨rfl, hrest⟩

def quoted (s : List UInt8) : List UInt8 := 0x22 :: closed s

theorem quoted_append_inj (h : quoted a ++ rest = quoted b ++ rest') : a = b ∧ rest = rest' :=
  closed_append_inj (List.cons.inj h).2

/-- The members after the first, and the closing brace. -/
def members : List (List UInt8 × List UInt8) → List UInt8
  | [] => [0x7d]
  | (name, value) :: rest => 0x2c :: (quoted name ++ 0x3a :: (quoted value ++ members rest))

def object : List (List UInt8 × List UInt8) → List UInt8
  | [] => [0x7b, 0x7d]
  | (name, value) :: rest => 0x7b :: (quoted name ++ 0x3a :: (quoted value ++ members rest))

theorem members_append_inj {l l' : List (List UInt8 × List UInt8)}
    (h : members l ++ rest = members l' ++ rest') : l = l' ∧ rest = rest' := by
  induction l generalizing l' with
  | nil =>
    cases l' with
    | nil => exact ⟨rfl, List.append_cancel_left h⟩
    | cons e l' => exact absurd (List.cons.inj h).1 (by decide)
  | cons e l ih =>
    cases l' with
    | nil => exact absurd (List.cons.inj h).1 (by decide)
    | cons e' l' =>
      simp only [members, List.cons_append, List.append_assoc] at h
      obtain ⟨hname, hrest⟩ := quoted_append_inj (List.cons.inj h).2
      obtain ⟨hvalue, hrest⟩ := quoted_append_inj (List.cons.inj hrest).2
      obtain ⟨hl, hrest⟩ := ih hrest
      rw [hl, Prod.ext hname hvalue]
      exact ⟨rfl, hrest⟩

theorem object_append_inj {l l' : List (List UInt8 × List UInt8)}
    (h : object l ++ rest = object l' ++ rest') : l = l' ∧ rest = rest' := by
  cases l with
  | nil =>
    cases l' with
    | nil => exact ⟨rfl, List.append_cancel_left h⟩
    | cons e' l' => exact absurd (List.cons.inj (List.cons.inj h).2).1 (by decide)
  | cons e l =>
    cases l' with
    | nil => exact absurd (List.cons.inj (List.cons.inj h).2).1 (by decide)
    | cons e' l' =>
      simp only [object, List.cons_append, List.append_assoc] at h
      obtain ⟨hname, hrest⟩ := quoted_append_inj (List.cons.inj h).2
      obtain ⟨hvalue, hrest⟩ := quoted_append_inj (List.cons.inj hrest).2
      obtain ⟨hl, hrest⟩ := members_append_inj hrest
      rw [hl, Prod.ext hname hvalue]
      exact ⟨rfl, hrest⟩

end JsonText
