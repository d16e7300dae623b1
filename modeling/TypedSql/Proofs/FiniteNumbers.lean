import Mathlib
import TypedSql.Decimal.Numeral

/-!
# Integers as floating-point numbers

The floating-point number nearest to an integer of 64 bits is finite. Rounding does not make an exponent
much greater (`atMost_roundWithAccuracy`), and a number whose exponent is not too great keeps it when it
is packed into bits and unpacked again (`atMost_unpack_pack`).
-/

namespace TypedSql.Decimal

open Float.Model (Format totalExponent UnpackedFloat)
open Float.Model.UnpackedFloat

/-! ### Rounding -/

theorem mantissa_shiftRight_le (em : ExtendedMantissa) (k : Nat) :
    (em >>> k).mantissa ≤ em.mantissa := by
  induction k with
  | zero => exact Nat.le_refl _
  | succ k ih => exact Nat.le_trans (Nat.div_le_self _ _) ih

theorem roundedMantissa_le (em : ExtendedMantissa) : em.roundedMantissa ≤ em.mantissa + 1 := by
  obtain ⟨m, round, sticky⟩ := em
  cases round <;> cases sticky
  all_goals
    simp only [ExtendedMantissa.roundedMantissa, ExtendedMantissa.accuracy,
      Accuracy.roundToNearestEven]
    omega

/-- A mantissa below `2 ^ k` has at most `k` digits in base two. -/
theorem log2_le_of_lt {m k : Nat} (h : m < 2 ^ k) : m.log2 ≤ k := by
  rcases Nat.eq_zero_or_pos m with rfl | hpos
  · exact Nat.zero_le k
  · exact Nat.le_of_lt ((Nat.log2_lt (Nat.ne_of_gt hpos)).mpr h)

theorem targetExponent_eq (total : Int) :
    Format.binary64.targetExponent total = max (total - 53) (-1074) := rfl

/-- Shifting a mantissa of `k` bits does not make it greater, nor the exponent much. -/
theorem shiftToTargetExponent_le {m k : Nat} {e b : Int} (hm : m < 2 ^ k) (he : e + k ≤ b)
    (hb : -1074 ≤ b) (a : Accuracy) :
    (shiftToTargetExponent Format.binary64 m e a).1.mantissa ≤ m ∧
      (shiftToTargetExponent Format.binary64 m e a).2 ≤ b := by
  have hlog := log2_le_of_lt hm
  constructor
  · refine Nat.le_trans (mantissa_shiftRight_le _ _) (Nat.le_of_eq ?_)
    cases a with
    | exact => rfl
    | inexact o => cases o <;> rfl
  · simp only [shiftToTargetExponent, shiftToExponent, targetExponent_eq, totalExponent]
    omega

/-- Zero, or a number whose exponent is at most `b`. -/
def AtMost (b : Int) : UnpackedFloat → Prop
  | .zero _ => True
  | .finite _ _ e _ => e ≤ b
  | _ => False

theorem AtMost.isFinite {b : Int} {u : UnpackedFloat} (h : AtMost b u) : u.isFinite = true := by
  cases u with
  | zero | finite => rfl
  | _ => exact h.elim

/-- A number of few bits is rounded to one with an exponent that is not much greater. -/
theorem atMost_roundWithAccuracy {m k : Nat} {e b : Int} (hm : m < 2 ^ k) (he : e + k ≤ b)
    (hb : -1074 ≤ b) (s : Sign) (a : Accuracy) :
    AtMost (b + (k + 1)) (roundWithAccuracy Format.binary64 s m e a) := by
  obtain ⟨hmantissa, hexponent⟩ := shiftToTargetExponent_le hm he hb a
  simp only [roundWithAccuracy]
  generalize shiftToTargetExponent Format.binary64 m e a = first at *
  have hrounded : first.1.roundedMantissa < 2 ^ (k + 1) := by
    have hle := roundedMantissa_le first.1
    rw [Nat.pow_succ]
    omega
  have hsecond := (shiftToTargetExponent_le (b := b + (k + 1)) (e := first.2) hrounded (by omega)
    (by omega) .exact).2
  split
  · trivial
  · exact hsecond

/-! ### Packing -/

theorem mantissa_lt_of_unpack {bits : BitVec Format.binary64.numBits} {s : Sign} {m : Nat} {e : Int}
    {hm : 0 < m} (h : unpack Format.binary64 bits = .finite s m e hm) : m < 2 ^ 53 := by
  unfold unpack at h
  dsimp only at h
  split at h
  · split at h <;> cases h
  · split at h
    · split at h
      · cases h
      · cases h
        exact Nat.lt_trans (BitVec.isLt _) (by decide)
    · cases h
      exact BitVec.isLt _

/-- A packed number has an exponent that is at most its exponent field less the bias. -/
theorem atMost_unpack {bits : BitVec Format.binary64.numBits} {b : Int} (hb : -1074 ≤ b)
    (hfield : (unpackExponent bits : BitVec Format.binary64.exponentBits).toNat < 2047)
    (hle : ((unpackExponent bits : BitVec Format.binary64.exponentBits).toNat : Int) ≤ b + 1075) :
    AtMost b (unpack Format.binary64 bits) := by
  have hbias : Format.binary64.exponentBias = 1023 := rfl
  have hnotAll : (unpackExponent bits : BitVec Format.binary64.exponentBits) ≠ -1#_ := by
    intro hall
    rw [hall] at hfield
    exact absurd hfield (by decide)
  simp only [unpack, if_neg hnotAll, hbias]
  split
  · next hzero =>
    split
    · trivial
    · simp only [AtMost, hzero, BitVec.toNat_zero]
      omega
  · simp only [AtMost]
    omega

/-- A number whose exponent is not too great keeps it in its packed form. -/
theorem atMost_unpack_pack {u : UnpackedFloat} {b : Int} (hb : -1074 ≤ b) (hmax : b ≤ 970)
    (h : AtMost b u) : AtMost b (unpack Format.binary64 (pack Format.binary64 u)) := by
  have hbias : Format.binary64.exponentBias = 1023 := rfl
  cases u with
  | zero s =>
    have hfield : (unpackExponent (packedZero Format.binary64 s) :
        BitVec Format.binary64.exponentBits).toNat = 0 := by
      rw [packedZero, unpackExponent_packComponents]
      rfl
    refine atMost_unpack hb ?_ ?_
    all_goals
      rw [pack, hfield]
      omega
  | finite s m e hm =>
    have he : e ≤ b := h
    simp only [pack, hbias]
    rw [if_neg (by omega)]
    split
    · refine atMost_unpack hb ?_ ?_
      all_goals
        rw [unpackExponent_packComponents, BitVec.toNat_ofNat,
          Nat.mod_eq_of_lt (by change _ < 2048; omega)]
        omega
    · refine atMost_unpack hb ?_ ?_
      all_goals
        rw [unpackExponent_packComponents, BitVec.toNat_zero]
        omega
  | _ => exact h.elim

/-! ### Integers -/

theorem AtMost.mono {b c : Int} {u : UnpackedFloat} (h : AtMost b u) (hle : b ≤ c) : AtMost c u := by
  cases u with
  | zero => trivial
  | finite s m e hm => exact Int.le_trans h hle
  | _ => exact h.elim

theorem atMost_round {m : Nat} (hm : m < 2 ^ 64) (s : Sign) :
    AtMost 200 (UnpackedFloat.round Format.binary64 s m 0) := by
  simp only [UnpackedFloat.round, decreaseExponent, targetExponent_eq, totalExponent, Nat.shiftLeft_eq]
  generalize hshift : (0 - max ((m.log2 : Int) + 1 + 0 - 53) (-1074)).toNat = shift
  have hbits : m * 2 ^ shift < 2 ^ (64 + shift) := by
    rw [Nat.pow_add]
    exact Nat.mul_lt_mul_of_pos_right hm (Nat.two_pow_pos shift)
  exact (atMost_roundWithAccuracy (b := 64) hbits (by omega) (by decide) s .exact).mono (by omega)

theorem atMost_ofUInt64 (n : UInt64) : AtMost 200 (ofUInt64 Format.binary64 n) := by
  have hlt : n.toNat < 2 ^ 64 := n.toNat_lt
  simp only [ofUInt64, ofNat, ofInt, UnpackedFloat.normalize]
  split
  · exact atMost_round (by omega) _
  · trivial
  · exact atMost_round (by omega) _

/-- The product of two packed numbers has an exponent that is not much greater than both together. -/
theorem atMost_mul {x y : BitVec Format.binary64.numBits} {b c : Int}
    (hx : AtMost b (unpack Format.binary64 x)) (hy : AtMost c (unpack Format.binary64 y))
    (hmin : -1180 ≤ b + c) :
    AtMost (b + c + 213)
      (mul Format.binary64 (unpack Format.binary64 x) (unpack Format.binary64 y)) := by
  rcases hux : unpack Format.binary64 x with s | _ | s | ⟨s, m, e, hm⟩
  · rw [hux] at hx
    exact hx.elim
  · rw [hux] at hx
    exact hx.elim
  · rcases huy : unpack Format.binary64 y with s' | _ | s' | ⟨s', m', e', hm'⟩
    all_goals rw [huy] at hy
    · exact hy.elim
    · exact hy.elim
    · trivial
    · trivial
  · rcases huy : unpack Format.binary64 y with s' | _ | s' | ⟨s', m', e', hm'⟩
    all_goals rw [huy] at hy
    · exact hy.elim
    · exact hy.elim
    · trivial
    · rw [hux] at hx
      have he : e ≤ b := hx
      have he' : e' ≤ c := hy
      have hbits : m * m' < 2 ^ 53 * 2 ^ 53 :=
        Nat.mul_lt_mul'' (mantissa_lt_of_unpack hux) (mantissa_lt_of_unpack huy)
      rw [← Nat.pow_add] at hbits
      exact (atMost_roundWithAccuracy (b := b + c + 106) hbits (by omega) (by omega) _ _).mono (by omega)

theorem atMost_ofScientific {m : Nat} (hm : m < 2 ^ 64) :
    AtMost 200 (UnpackedFloat.ofScientific Format.binary64 m 0) := by
  rcases Nat.eq_zero_or_pos m with rfl | hpos
  · rw [UnpackedFloat.ofScientific, dif_pos rfl]
    trivial
  · have hne : m ≠ 0 := Nat.ne_of_gt hpos
    have hsmall : ¬ (0 : Int) < -(2 ^ Format.binary64.exponentBits + (m.log2 : Int)) := by
      have hexponent : (2 : Int) ^ Format.binary64.exponentBits = 2048 := rfl
      rw [hexponent]
      omega
    have hround : UnpackedFloat.ofScientific Format.binary64 m 0 =
        roundWithAccuracy Format.binary64 (.positive * .positive)
          (m <<< Format.binary64.mantissaBits * 10 ^ (0 : Int).toNat)
          (-(Format.binary64.mantissaBits : Int) + 0) .exact := by
      rw [UnpackedFloat.ofScientific, dif_neg hne, if_neg (by decide), if_neg hsmall,
        if_pos (by decide), mul]
    have hbits : m <<< Format.binary64.mantissaBits * 10 ^ (0 : Int).toNat < 2 ^ 117 := by
      have hmantissa : Format.binary64.mantissaBits = 53 := rfl
      have hten : 10 ^ (0 : Int).toNat = 1 := rfl
      rw [hmantissa, Nat.shiftLeft_eq, hten]
      omega
    rw [hround]
    generalize m <<< Format.binary64.mantissaBits * 10 ^ (0 : Int).toNat = mantissa at hbits ⊢
    refine AtMost.mono (b := 64 + ((117 : Nat) + 1)) ?_ (by decide)
    exact atMost_roundWithAccuracy hbits (by decide) (by decide) _ _

/-- An integer below `2 ^ 64` is nearest to a number of moderate exponent: a small one is converted
and multiplied by one, a great one is rounded as it is. -/
theorem atMost_ofNat {m : Nat} (hm : m < 2 ^ 64) : AtMost 413 (Float.ofNat m).toModel.unpack := by
  have hfloat : Float.ofNat m = Float.ofScientific m false 0 := rfl
  rw [hfloat, Float.ofScientific]
  split
  · have hone : (Float.ofBits 0x3FF0000000000000).toModel.unpack =
        .finite .positive (2 ^ 52) (-52) (by decide) := rfl
    have hword := atMost_unpack_pack (by decide) (by decide) (atMost_ofUInt64 m.toUInt64)
    have hunit : AtMost 0 (Float.ofBits 0x3FF0000000000000).toModel.unpack := by
      rw [hone]
      exact Int.le_of_lt (by decide)
    exact atMost_unpack_pack (by decide) (by decide) (atMost_mul hword hunit (by decide))
  · exact (atMost_unpack_pack (by decide) (by decide) (atMost_ofScientific hm)).mono (by decide)

/-- **The number nearest to an integer of 64 bits is finite.** -/
theorem isFinite_ofInt (n : Int64) : (Float.ofInt n.toInt).isFinite = true := by
  have hlow : -2 ^ 63 ≤ n.toInt := n.le_toInt
  have hhigh : n.toInt < 2 ^ 63 := n.toInt_lt
  generalize n.toInt = k at *
  cases k with
  | ofNat m =>
    have hlt : (m : Int) < 2 ^ 63 := hhigh
    exact (atMost_ofNat (m := m) (by omega)).isFinite
  | negSucc m =>
    have hnat := atMost_ofNat (m := m + 1) (by omega)
    have hneg : AtMost 413 (Float.ofNat (m + 1)).toModel.unpack.neg := by
      cases hu : (Float.ofNat (m + 1)).toModel.unpack with
      | zero => trivial
      | finite s m e hm =>
        rw [hu] at hnat
        exact hnat
      | _ =>
        rw [hu] at hnat
        exact hnat.elim
    exact (atMost_unpack_pack (by decide) (by decide) hneg).isFinite

end TypedSql.Decimal
