import Mathlib

/-!
# The order of bytes

Texts are compared code point by code point. This is also how the lists of their bytes compare
(`bytes_lt_iff`): the first byte of a character is greater the more bytes follow it, and with the same
number of bytes the code point is cut into digits of six bits, the most significant ones first.
-/

namespace TypedSql.Text

open String

/-- The bytes of a text. -/
def bytes (s : String) : List UInt8 := s.toByteArray.data.toList

theorem bytes_eq_flatMap (s : String) : bytes s = s.toList.flatMap utf8EncodeChar := by
  rw [bytes, ← s.ofList_toList, toByteArray_ofList, List.utf8Encode, List.data_toByteArray,
    s.ofList_toList]

theorem cons_ofNat_lt_iff {a b : Nat} (ha : a < 256) (hb : b < 256) {xs ys : List UInt8} :
    UInt8.ofNat a :: xs < UInt8.ofNat b :: ys ↔ a < b ∨ a = b ∧ xs < ys := by
  rw [List.cons_lt_cons_iff, UInt8.lt_iff_toNat_lt, ← UInt8.toNat_inj, UInt8.toNat_ofNat_of_lt' ha,
    UInt8.toNat_ofNat_of_lt' hb]

/-! ### Characters -/

/-- The bytes behind the first one: the last digits of a code point in base 64. -/
def continuation : Nat → Nat → List UInt8
  | 0, _ => []
  | k + 1, v => continuation k (v / 64) ++ [UInt8.ofNat (v % 64 + 128)]

/-- Numbers that differ in their last digits only are ordered by these. -/
theorem continuation_lt {k v w : Nat} (h : v < w) (hsame : v / 64 ^ k = w / 64 ^ k)
    (xs ys : List UInt8) : continuation k v ++ xs < continuation k w ++ ys := by
  induction k generalizing v w xs ys with
  | zero => simp only [Nat.pow_zero, Nat.div_one] at hsame; omega
  | succ k ih =>
    rw [continuation, continuation, List.append_assoc, List.append_assoc]
    rcases Nat.lt_or_eq_of_le (Nat.div_le_div_right (c := 64) (Nat.le_of_lt h)) with hlt | heq
    · refine ih hlt ?_ _ _
      rw [Nat.div_div_eq_div_mul, Nat.div_div_eq_div_mul, ← Nat.pow_succ']
      exact hsame
    · rw [heq]
      refine List.append_left_lt ?_
      rw [List.singleton_append, List.singleton_append, cons_ofNat_lt_iff (by omega) (by omega)]
      exact .inl (by omega)

/-- The mark in the first byte of a character that so many bytes follow. -/
def mark : Nat → Nat
  | 0 => 0
  | 1 => 0xC0
  | 2 => 0xE0
  | 3 => 0xF0
  | _ => 0x100

/-- The least code point of a character whose first byte so many bytes follow. -/
def least : Nat → Nat
  | 0 => 0
  | 1 => 0x80
  | 2 => 0x800
  | 3 => 0x10000
  | _ => 0x110000

theorem mark_le_mark : ∀ k ≤ 4, ∀ l ≤ k, mark l ≤ mark k := by decide

theorem least_le_least : ∀ k ≤ 4, ∀ l ≤ k, least l ≤ least k := by decide

theorem toNat_lt (c : Char) : c.toNat < 0x110000 := by
  rcases c.valid with h | ⟨-, h⟩
  · exact Nat.lt_trans h (by decide)
  · exact h

/-- The bytes of a character: its code point in base 64, the first digits behind a mark. -/
theorem utf8EncodeChar_eq (c : Char) : ∃ k < 4,
    utf8EncodeChar c = UInt8.ofNat (c.toNat / 64 ^ k + mark k) :: continuation k c.toNat ∧
      least k ≤ c.toNat ∧ c.toNat < least (k + 1) := by
  have hvalid := toNat_lt c
  fun_cases utf8EncodeChar c with
  | case1 v h =>
    refine ⟨0, by decide, ?_, Nat.zero_le _, Nat.lt_succ_of_le h⟩
    simp [continuation, mark, v]
  | case2 v h₁ h₂ =>
    have hlead : v / 64 % 32 = v / 64 := Nat.mod_eq_of_lt (by omega)
    refine ⟨1, by decide, ?_, Nat.lt_of_not_le h₁, Nat.lt_succ_of_le h₂⟩
    rw [hlead]
    simp [continuation, mark, v]
  | case3 v h₁ h₂ h₃ =>
    have hlead : v / 4096 % 16 = v / 4096 := Nat.mod_eq_of_lt (by omega)
    refine ⟨2, by decide, ?_, Nat.lt_of_not_le h₂, Nat.lt_succ_of_le h₃⟩
    rw [hlead]
    simp [continuation, mark, v]
  | case4 v h₁ h₂ h₃ =>
    have hlead : v / 262144 % 8 = v / 262144 :=
      Nat.mod_eq_of_lt (Nat.div_lt_of_lt_mul (Nat.lt_trans hvalid (by decide)))
    refine ⟨3, by decide, ?_, Nat.lt_of_not_le h₃, hvalid⟩
    rw [hlead]
    simp [continuation, mark, v, Nat.div_div_eq_div_mul]

/-- The first byte of a character says how many bytes follow. -/
theorem lead_lt {k v : Nat} (hk : k < 4) (h : v < least (k + 1)) :
    v / 64 ^ k + mark k < mark (k + 1) := by
  have hdigits : ∀ k < 4, least (k + 1) ≤ 64 ^ k * (mark (k + 1) - mark k) := by decide
  exact Nat.add_lt_of_lt_sub (Nat.div_lt_of_lt_mul (Nat.lt_of_lt_of_le h (hdigits k hk)))

/-- A character in front of another one is also written in front of it, whatever follows. -/
theorem utf8EncodeChar_lt {c d : Char} (h : c < d) (xs ys : List UInt8) :
    utf8EncodeChar c ++ xs < utf8EncodeChar d ++ ys := by
  have hlt : c.toNat < d.toNat := h
  obtain ⟨k, hk, hc, hleastc, hgreatc⟩ := utf8EncodeChar_eq c
  obtain ⟨l, hl, hd, hleastd, hgreatd⟩ := utf8EncodeChar_eq d
  have hleadc := lead_lt hk hgreatc
  have hleadd := lead_lt hl hgreatd
  have hbytec := mark_le_mark 4 (by decide) (k + 1) (by omega)
  have hbyted := mark_le_mark 4 (by decide) (l + 1) (by omega)
  have hbyte : mark 4 = 256 := rfl
  rw [hc, hd, List.cons_append, List.cons_append, cons_ofNat_lt_iff (by omega) (by omega)]
  rcases Nat.lt_trichotomy k l with hkl | rfl | hlk
  · have hmark := mark_le_mark l (by omega) (k + 1) hkl
    have hleast : mark l ≤ d.toNat / 64 ^ l + mark l := Nat.le_add_left _ _
    exact .inl (by omega)
  · rcases Nat.lt_or_eq_of_le (Nat.div_le_div_right (c := 64 ^ k) (Nat.le_of_lt hlt)) with hdigits | heq
    · exact .inl (by omega)
    · exact .inr ⟨by rw [heq], continuation_lt hlt heq xs ys⟩
  · -- more bytes follow greater code points only
    have hleast := least_le_least k (by omega) (l + 1) hlk
    omega

/-! ### Texts -/

theorem append_lt_append_iff (xs ys zs : List UInt8) : xs ++ ys < xs ++ zs ↔ ys < zs := by
  induction xs with
  | nil => rfl
  | cons x xs ih =>
    rw [List.cons_append, List.cons_append, List.cons_lt_cons_iff, ih]
    simp

/-- **Texts are ordered as their bytes are.** -/
theorem bytes_lt_iff (s t : String) : bytes s < bytes t ↔ s < t := by
  rw [bytes_eq_flatMap, bytes_eq_flatMap, String.lt_iff]
  generalize s.toList = cs, t.toList = ds
  induction cs generalizing ds with
  | nil =>
    cases ds with
    | nil => simp
    | cons d ds =>
      obtain ⟨b, rest, hb⟩ := List.exists_cons_of_ne_nil (utf8EncodeChar_ne_nil (c := d))
      rw [List.flatMap_cons, hb]
      exact iff_of_true (List.nil_lt_cons _ _) (List.nil_lt_cons _ _)
  | cons c cs ih =>
    cases ds with
    | nil => simp
    | cons d ds =>
      rw [List.flatMap_cons, List.flatMap_cons, List.cons_lt_cons_iff]
      rcases Nat.lt_trichotomy c.toNat d.toNat with h | h | h
      · exact iff_of_true (utf8EncodeChar_lt h _ _) (.inl h)
      · obtain rfl : c = d := Char.toNat_inj.mp h
        rw [append_lt_append_iff, ih]
        simp
      · refine iff_of_false (List.lt_asymm (utf8EncodeChar_lt h _ _)) ?_
        rintro (hlt | ⟨rfl, -⟩)
        · exact Nat.lt_asymm h hlt
        · exact Nat.lt_irrefl _ h

theorem bytes_le_iff (s t : String) : bytes s ≤ bytes t ↔ s ≤ t :=
  not_congr (bytes_lt_iff t s)

end TypedSql.Text
