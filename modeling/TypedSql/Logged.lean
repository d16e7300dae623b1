import TypedSql.Event

/-!
# Results with events

A computation that may fail and that reports events on its way. Events that were reported before a
failure are kept. The two fields of `Logged` are its two views: what it reported, and how it ended.
-/

namespace TypedSql

/-- How a computation ended, and what it reported in order. -/
structure Logged (ε α : Type) where
  events : List Event
  result : Except ε α

namespace Logged

variable {ε α β : Type}

/-- Ends with a value and reports nothing. -/
protected def pure (a : α) : Logged ε α := ⟨[], .ok a⟩

/-- Fails and reports nothing. -/
def fail (e : ε) : Logged ε α := ⟨[], .error e⟩

/-- Reports one event. -/
def emit (event : Event) : Logged ε Unit := ⟨[event], .ok ()⟩

/-- A result that reports nothing. -/
def ofExcept (r : Except ε α) : Logged ε α := ⟨[], r⟩

/-- Goes on with the value of `x`, unless `x` failed. -/
protected def bind (x : Logged ε α) (f : α → Logged ε β) : Logged ε β :=
  match x.result with
  | .ok a => ⟨x.events ++ (f a).events, (f a).result⟩
  | .error e => ⟨x.events, .error e⟩

/-- Gives a failure another form. -/
def mapError {ε' : Type} (f : ε → ε') (x : Logged ε α) : Logged ε' α :=
  ⟨x.events, x.result.mapError f⟩

instance : Monad (Logged ε) where
  pure := Logged.pure
  bind := Logged.bind

/-! ### The two views -/

@[simp] theorem result_pure (a : α) : (pure a : Logged ε α).result = .ok a := rfl

@[simp] theorem events_pure (a : α) : (pure a : Logged ε α).events = [] := rfl

@[simp] theorem result_fail (e : ε) : (fail e : Logged ε α).result = .error e := rfl

@[simp] theorem result_ofExcept (r : Except ε α) : (ofExcept r).result = r := rfl

@[simp] theorem result_emit (event : Event) : (emit event : Logged ε Unit).result = .ok () := rfl

@[simp] theorem result_bind (x : Logged ε α) (f : α → Logged ε β) :
    (x >>= f).result = x.result.bind fun a => (f a).result := by
  obtain ⟨events, result⟩ := x
  cases result <;> rfl

theorem events_bind_of_ok {x : Logged ε α} {a : α} (h : x.result = .ok a) (f : α → Logged ε β) :
    (x >>= f).events = x.events ++ (f a).events := by
  obtain ⟨events, result⟩ := x
  cases h; rfl

@[simp] theorem result_mapError {ε' : Type} (f : ε → ε') (x : Logged ε α) :
    (x.mapError f).result = x.result.mapError f := rfl

end Logged

end TypedSql
