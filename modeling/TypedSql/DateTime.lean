import TypedSql.Decimal.Digits

/-!
# Dates and times

A date and a time of day without a time zone. A leap second is the second 59 with a billion
nanoseconds or more, and is written as the second 60.
-/

namespace TypedSql

open Decimal

/-- A date and a time of day. -/
structure DateTime where
  year : Int
  month : Nat
  day : Nat
  hour : Nat
  minute : Nat
  second : Nat
  /-- Nanoseconds into the second; from a billion on, into a leap second. -/
  nanosecond : Nat
deriving DecidableEq, Repr

namespace DateTime

/-- A year in at least four digits. A year before 0 has a minus sign, a year after 9999 a plus sign. -/
def yearText (year : Int) : List Char :=
  if year < 0 then '-' :: padded 4 year.natAbs
  else if 9999 < year then '+' :: padded 4 year.natAbs
  else padded 4 year.natAbs

/-- Year to millisecond, `2020-01-02 03:04:05.006`; what is finer than a millisecond is cut off. -/
def text (t : DateTime) : String :=
  String.ofList <|
    yearText t.year ++ '-' :: padded 2 t.month ++ '-' :: padded 2 t.day ++ ' ' :: padded 2 t.hour
      ++ ':' :: padded 2 t.minute ++ ':' :: padded 2 (t.second + t.nanosecond / 1000000000)
      ++ '.' :: padded 3 (t.nanosecond % 1000000000 / 1000000)

end DateTime

end TypedSql
