/-!
# Settings

How a builder treats a malformed offset: the strict policy makes it an error, the lenient one takes a
fallback page, or no page at all.
-/

namespace TypedSql

/-- How a malformed offset is treated. -/
inductive LimitPolicy where
  | strict | lenient
deriving DecidableEq, Repr

/-- The name of a policy. -/
def LimitPolicy.name : LimitPolicy → String
  | .strict => "strict"
  | .lenient => "lenient"

/-- The policy of a name. -/
def LimitPolicy.ofName? (s : String) : Option LimitPolicy :=
  [LimitPolicy.strict, LimitPolicy.lenient].find? fun p => p.name == s

/-- A window of rows: how many to skip, and how many to take at most. -/
structure Page where
  offset : Int64
  limit : Int64
deriving DecidableEq, Repr

/-- The settings of a builder. -/
structure Settings where
  policy : LimitPolicy
  /-- The page that the lenient policy takes in place of a malformed offset. -/
  fallback : Option Page
deriving DecidableEq, Repr

namespace Settings

/-- The strict policy without a fallback page; this is the default. -/
def strict : Settings := ⟨.strict, none⟩

/-- The lenient policy without a fallback page. -/
def lenient : Settings := ⟨.lenient, none⟩

/-- The lenient policy. -/
def isLenient (s : Settings) : Bool := s.policy == .lenient

end Settings

end TypedSql
