import Mathlib
import TypedSql.Json.Tree
import TypedSql.Proofs.FiniteNumbers

/-!
# Whole numbers of JSON

A number without fraction and exponent is read with the exponent zero. Where it has a value as a
whole number that fits in 64 bits without a sign, the floating-point number nearest to it is finite.
-/

namespace TypedSql

namespace Decimal

/-- The number nearest to a positive whole number of 64 bits is finite. -/
theorem isFinite_toFloat {m : Nat} (hpos : 0 < m) (hmax : m < 2 ^ 64) :
    (Numeral.toFloat ⟨false, m, 0⟩).isFinite = true := by
  have hne : m ≠ 0 := Nat.ne_of_gt hpos
  have hhuge : Numeral.isHuge ⟨false, m, 0⟩ = false := by simp [Numeral.isHuge]
  have htiny : Numeral.isTiny ⟨false, m, 0⟩ = false := by
    simp only [Numeral.isTiny, hne, decide_false, Bool.false_or, decide_eq_false_iff_not]
    omega
  have hfloat : Numeral.toFloat ⟨false, m, 0⟩ = Float.ofNat m := by
    simp only [Numeral.toFloat, hhuge, htiny]
    rfl
  rw [hfloat]
  exact (atMost_ofNat hmax).isFinite

/-! ### Reading -/

/-- A numeral of digits and minus signs has no exponent. -/
theorem exponent_eq_zero_of_read? {cs : List Char} (h : ∀ c ∈ cs, c.isDigit = true ∨ c = '-')
    {n : Numeral} (hread : Numeral.read? cs = some n) : n.exponent = 0 := by
  have hsign : ∀ c ∈ (splitSign cs).2, c.isDigit = true ∨ c = '-' := fun c hc => h c <| by
    unfold splitSign at hc
    split at hc
    · exact List.mem_cons_of_mem _ hc
    · exact List.mem_cons_of_mem _ hc
    · exact hc
  have hrest : ∀ c ∈ (splitDigits (splitSign cs).2).2, c.isDigit = true ∨ c = '-' := fun c hc =>
    hsign c ((List.dropWhile_suffix _).subset hc)
  unfold Numeral.read? at hread
  dsimp only at hread
  generalize (splitDigits (splitSign cs).2).2 = rest at hread hrest
  generalize (splitDigits (splitSign cs).2).1 = whole at hread
  have hfraction : splitFraction whole rest = ([], rest) := by
    refine splitFraction.eq_2 whole rest ?_
    rintro rest' rfl
    exact absurd (hrest '.' List.mem_cons_self) (by decide)
  rw [hfraction] at hread
  split at hread
  · cases hread
  · obtain ⟨power, hpower, rfl⟩ := Option.map_eq_some_iff.mp hread
    -- what follows the digits is no exponent, so nothing follows them
    cases rest with
    | nil =>
      obtain rfl : 0 = power := Option.some.inj hpower
      rfl
    | cons c rest =>
      have hc := hrest c List.mem_cons_self
      rw [exponentValue?, if_neg] at hpower
      · cases hpower
      · simp only [Bool.or_eq_true, decide_eq_true_eq]
        rintro (rfl | rfl)
        · exact absurd hc (by decide)
        · exact absurd hc (by decide)

end Decimal

namespace Json

open Decimal

/-- A positive whole number is read as its digits. -/
theorem read?_of_integer?_eq_some {lexeme : List Char} {n : Int} (h : integer? lexeme = some n)
    (hpos : 0 < n) : Numeral.read? lexeme = some ⟨false, n.natAbs, 0⟩ := by
  unfold integer? at h
  split at h
  · next numeral hwhole hread =>
    have hchars : ∀ c ∈ lexeme, c.isDigit = true ∨ c = '-' := by simpa [isWhole] using hwhole
    obtain ⟨negative, mantissa, exponent⟩ := numeral
    obtain rfl : exponent = 0 := exponent_eq_zero_of_read? hchars hread
    rw [hread]
    cases negative with
    | false =>
      obtain rfl : (mantissa : Int) = n := Option.some.inj h
      rfl
    | true =>
      -- behind a minus sign there is no positive number
      simp only [if_true] at h
      split at h
      · cases h
      · have hn := Option.some.inj h
        omega
  · cases h

/-- What does not fit in 64 bits with a sign, but without, is a great positive number. -/
theorem bounds_of_fitsWord {n : Int} (hword : Tree.FitsWord n) (h : ¬ FitsInt64 n) :
    9223372036854775808 ≤ n ∧ n < 18446744073709551616 := by
  have hmin : Int64.minValue.toInt = -9223372036854775808 := rfl
  have hsize : (UInt64.size : Int) = 18446744073709551616 := rfl
  rw [fitsInt64_iff] at h
  obtain ⟨hlow, hhigh⟩ := hword
  omega

/-- **The value of a number is the value of its tree.** -/
theorem map_ofNumber? (lexeme : List Char) :
    (Tree.ofNumber? lexeme).map Tree.toValue = numberValue? lexeme := by
  unfold Tree.ofNumber? numberValue?
  cases hinteger : integer? lexeme with
  | none =>
    simp only [Option.bind_none, Option.map_map]
    rfl
  | some n =>
    simp only [Option.bind_some]
    by_cases hint : FitsInt64 n
    · have hword : Tree.FitsWord n := ⟨hint.1, Int.lt_of_le_of_lt hint.2 (by decide)⟩
      rw [if_pos hword, Decimal.int64?, if_pos hint, Option.map_some, Tree.toValue, Tree.integerValue,
        Decimal.int64?, if_pos hint]
    · rw [Decimal.int64?, if_neg hint]
      by_cases hword : Tree.FitsWord n
      · obtain ⟨hlow, hhigh⟩ := bounds_of_fitsWord hword hint
        have hread := read?_of_integer?_eq_some hinteger (by omega)
        have hfinite : (Numeral.toFloat ⟨false, n.natAbs, 0⟩).isFinite = true :=
          isFinite_toFloat (by omega) (by omega)
        have hsign : decide (n < 0) = false := decide_eq_false (by omega)
        rw [if_pos hword, Option.map_some, Tree.toValue, Tree.integerValue, Decimal.int64?, if_neg hint,
          finite?, hread, hsign]
        simp only [hfinite, if_true, Option.map_some]
      · rw [if_neg hword, Option.map_map]
        rfl

end Json

end TypedSql
