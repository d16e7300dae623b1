/-!
# Decimal digits

Whole numbers as text in base ten.
-/

namespace TypedSql.Decimal

/-- The digits of a natural number, most significant first; zero is `0`. -/
def digits (n : Nat) : List Char :=
  Nat.toDigits 10 n

/-- The number that a list of digits stands for; the empty list stands for zero. -/
def ofDigits (ds : List Char) : Nat :=
  Nat.ofDigitChars 10 ds 0

/-- An integer as text: its digits, after `-` when it is negative. -/
def integerText (n : Int) : String :=
  String.ofList (if n < 0 then '-' :: digits n.natAbs else digits n.natAbs)

/-- A natural number in at least `width` digits, filled up with zeros on the left. -/
def padded (width n : Nat) : List Char :=
  List.replicate (width - (digits n).length) '0' ++ digits n

theorem isDigit_of_mem_digits {c : Char} {n : Nat} (h : c ∈ digits n) : c.isDigit = true :=
  Nat.isDigit_of_mem_toDigits (by decide) (by decide) h

/-- Digits read back as the number they were written for. -/
@[simp] theorem ofDigits_digits (n : Nat) : ofDigits (digits n) = n :=
  Nat.ofDigitChars_toDigits (by decide) (by decide)

end TypedSql.Decimal
