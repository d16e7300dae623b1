import TypedSql.Logged

/-!
# Steps that may fail

What is built from steps in `Except` succeeds as all of its steps do, and fails as the first that does.
One equivalence for each way of putting steps together says so, and a walk along a list fails at its
first element that fails (`mapM_eq_error_iff`).
-/

namespace TypedSql

variable {ε ε' α β γ : Type} {x : Except ε α} {e : ε}

theorem except_bind_def (x : Except ε α) (f : α → Except ε β) : (x >>= f) = x.bind f := rfl

theorem except_pure_def (a : α) : (pure a : Except ε α) = .ok a := rfl

/-! ### Success -/

/-- Two steps succeed exactly when the first does, and the second does from its value. -/
theorem bind_eq_ok_iff {f : α → Except ε β} {b : β} :
    x.bind f = .ok b ↔ ∃ a, x = .ok a ∧ f a = .ok b := by
  cases x <;> simp [Except.bind]

theorem map_eq_ok_iff {f : α → β} {b : β} : x.map f = .ok b ↔ ∃ a, x = .ok a ∧ f a = b := by
  cases x <;> simp [Except.map]

/-! ### Failure -/

/-- Two steps fail as the first one does, or as the second one does from its value. -/
theorem bind_eq_error_iff {f : α → Except ε β} :
    x.bind f = .error e ↔ x = .error e ∨ ∃ a, x = .ok a ∧ f a = .error e := by
  cases x <;> simp [Except.bind]

theorem map_eq_error_iff {f : α → β} : x.map f = .error e ↔ x = .error e := by
  cases x <;> simp [Except.map]

theorem mapError_eq_error_iff {f : ε → ε'} {e : ε'} :
    x.mapError f = .error e ↔ ∃ cause, x = .error cause ∧ f cause = e := by
  cases x with
  | error cause =>
    have hmap : (Except.error cause : Except ε α).mapError f = .error (f cause) := rfl
    simp [hmap]
  | ok a =>
    have hmap : (Except.ok a : Except ε α).mapError f = .ok a := rfl
    simp [hmap]

theorem mapM_cons_eq_error_iff {f : α → Except ε β} {head : α} {rest : List α} :
    (head :: rest).mapM f = .error e ↔
      f head = .error e ∨ (∃ b, f head = .ok b) ∧ rest.mapM f = .error e := by
  rw [List.mapM_cons, except_bind_def, bind_eq_error_iff]
  simp [except_bind_def, except_pure_def, bind_eq_error_iff]

/-- A walk along a list fails exactly as the first element that fails. -/
theorem mapM_eq_error_iff {f : α → Except ε β} {l : List α} :
    l.mapM f = .error e ↔ ∃ before a after, l = before ++ a :: after ∧
      (∀ earlier ∈ before, ∃ b, f earlier = .ok b) ∧ f a = .error e := by
  induction l with
  | nil => simp [except_pure_def]
  | cons head rest ih =>
    rw [mapM_cons_eq_error_iff, ih]
    constructor
    · rintro (hhead | ⟨hhead, before, a, after, rfl, hbefore, ha⟩)
      · exact ⟨[], head, rest, rfl, List.forall_mem_nil _, hhead⟩
      · exact ⟨head :: before, a, after, rfl, List.forall_mem_cons.mpr ⟨hhead, hbefore⟩, ha⟩
    · rintro ⟨_ | ⟨first, before⟩, a, after, hsplit, hbefore, ha⟩
      · obtain ⟨rfl, rfl⟩ := List.cons.inj hsplit
        exact .inl ha
      · obtain ⟨rfl, rfl⟩ := List.cons.inj hsplit
        obtain ⟨hfirst, hbefore⟩ := List.forall_mem_cons.mp hbefore
        exact .inr ⟨hfirst, before, a, after, rfl, hbefore, ha⟩

/-! ### Equal steps -/

/-- A walk along two lists is a walk along the first and then along the second. -/
theorem mapM_append (f : α → Except ε β) (l₁ l₂ : List α) :
    (l₁ ++ l₂).mapM f = (l₁.mapM f).bind fun bs => (l₂.mapM f).map (bs ++ ·) := by
  rw [List.mapM_append]
  rfl

theorem map_of_bind (x : Except ε α) (f : α → Except ε β) (g : β → γ) :
    (x.bind f).map g = x.bind fun a => (f a).map g := by
  cases x <;> rfl

/-- Two steps whose values are not looked at can stand for each other when they fail alike. -/
theorem bind_const_congr {y : Except ε β} (h : x.map (fun _ => ()) = y.map fun _ => ())
    (next : Except ε γ) : (x.bind fun _ => next) = y.bind fun _ => next := by
  cases x <;> cases y <;> simp_all [Except.map, Except.bind]

theorem Logged.ofExcept_bind_pure (x : Except ε α) (f : α → β) :
    (Logged.ofExcept x >>= fun a => pure (f a)) = ⟨[], x.map f⟩ := by
  cases x <;> rfl

end TypedSql
