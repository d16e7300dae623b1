/-!
# Binary numbers

What the bits of a 64-bit floating-point number stand for, its whole part, and the nearest 64-bit
integer to a whole number out of range.
-/

namespace TypedSql.Decimal

/-- The meaning of a 64-bit floating-point number. -/
inductive Binary where
  /-- Not a number. -/
  | nan
  /-- Positive or negative infinity. -/
  | infinite (negative : Bool)
  /-- The number `± mantissa · 2 ^ exponent`. -/
  | finite (negative : Bool) (mantissa : Nat) (exponent : Int)
deriving DecidableEq, Repr

/-- Decodes sign, exponent and fraction; a subnormal number has no implicit leading bit. -/
def Binary.ofFloat (x : Float) : Binary :=
  let bits := x.toBits.toNat
  let negative := Nat.pow 2 63 ≤ bits
  let exponent : Nat := bits / Nat.pow 2 52 % Nat.pow 2 11
  let fraction := bits % Nat.pow 2 52
  if exponent = 2047 then
    if fraction = 0 then .infinite negative else .nan
  else if exponent = 0 then .finite negative fraction (-1074)
  else .finite negative (Nat.pow 2 52 + fraction) ((exponent : Int) - 1075)

/-- The whole part of a finite number: its fraction is cut off. Other numbers have none. -/
def Binary.truncate? : Binary → Option Int
  | .finite negative mantissa exponent =>
    let magnitude :=
      if 0 ≤ exponent then mantissa * Nat.pow 2 exponent.toNat
      else mantissa / Nat.pow 2 (-exponent).toNat
    some (if negative then -(magnitude : Int) else magnitude)
  | _ => none

/-- An integer fits in 64 bits with a sign. -/
def FitsInt64 (n : Int) : Prop := Int64.minValue.toInt ≤ n ∧ n ≤ Int64.maxValue.toInt

instance (n : Int) : Decidable (FitsInt64 n) := by
  unfold FitsInt64; infer_instance

/-- The 64-bit integer nearest to `n`: itself, or the end of the range that it lies beyond. -/
def saturate (n : Int) : Int64 :=
  if n < Int64.minValue.toInt then Int64.minValue
  else if Int64.maxValue.toInt < n then Int64.maxValue
  else Int64.ofInt n

/-- The 64-bit integer that an integer in range is. -/
def int64? (n : Int) : Option Int64 :=
  if FitsInt64 n then some (Int64.ofInt n) else none

/-- A finite number without its fraction, as a 64-bit integer. -/
def truncatedInt64? (x : Float) : Option Int64 :=
  (Binary.ofFloat x).truncate?.map saturate

theorem fitsInt64_iff {n : Int} :
    FitsInt64 n ↔ -9223372036854775808 ≤ n ∧ n ≤ 9223372036854775807 :=
  Iff.rfl

theorem toInt_ofInt_of_fitsInt64 {n : Int} (h : FitsInt64 n) : (Int64.ofInt n).toInt = n := by
  obtain ⟨h₁, h₂⟩ := fitsInt64_iff.mp h
  exact Int64.toInt_ofInt_of_le h₁ (by omega)

/-- Reading an integer as 64 bits keeps its value. -/
theorem toInt_of_int64?_eq_some {n : Int} {m : Int64} (h : int64? n = some m) : m.toInt = n := by
  unfold int64? at h
  split at h
  · next fits => cases h; exact toInt_ofInt_of_fitsInt64 fits
  · cases h

end TypedSql.Decimal
