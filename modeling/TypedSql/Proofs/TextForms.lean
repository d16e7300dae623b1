import TypedSql.Dialect.MySql
import TypedSql.Text.Normal

/-!
# Forms of a text

A text is written in two forms: the normal form in which it is bound to a text field, and the literal
of the MySQL dialect. The literal can be read back: what a server reads between the quotes is the text
again (`MySql.readText_escapeChars`), so a literal ends where it ends, whatever follows. The normal form
is the text itself exactly when nothing in it has to be escaped and no line end has to be changed
(`Text.normalise_eq_self_iff`).
-/

namespace TypedSql

/-! ### Reading a literal -/

namespace MySql

/-- The character that a character behind a backslash stands for. -/
def unescapeChar : Char → Char
  | '0' => '\x00'
  | 'b' => '\x08'
  | 't' => '\t'
  | 'n' => '\n'
  | 'r' => '\r'
  | 'Z' => '\x1a'
  | c => c

/-- The text up to the closing quote, and what follows the quote. -/
def readText : List Char → Option (List Char × List Char)
  | [] => none
  | '\'' :: rest => some ([], rest)
  | '\\' :: c :: rest => (readText rest).map fun (cs, rest') => (unescapeChar c :: cs, rest')
  | c :: rest => (readText rest).map fun (cs, rest') => (c :: cs, rest')

/-- A character is escaped as a backslash and one that stands for it, or it is neither a quote nor a
backslash and stays. -/
theorem escapeChar_cases (c : Char) :
    (∃ d, escapeChar c = ['\\', d] ∧ unescapeChar d = c) ∨
      (escapeChar c = [c] ∧ c ≠ '\'' ∧ c ≠ '\\') := by
  unfold escapeChar
  split
  case h_10 => exact .inr ⟨rfl, by assumption, by assumption⟩
  all_goals exact .inl ⟨_, rfl, rfl⟩

/-- **An escaped text is read back** up to the quote behind it. -/
theorem readText_escapeChars (cs rest : List Char) :
    readText (escapeChars cs ++ '\'' :: rest) = some (cs, rest) := by
  induction cs with
  | nil => simp [escapeChars, readText]
  | cons c cs ih =>
    rw [escapeChars, List.flatMap_cons, List.append_assoc]
    rcases escapeChar_cases c with ⟨d, hescape, hunescape⟩ | ⟨hsame, hquote, hbackslash⟩
    · rw [hescape]
      change (readText (escapeChars cs ++ '\'' :: rest)).map _ = _
      rw [ih, Option.map_some, hunescape]
    · rw [hsame, List.singleton_append, readText.eq_4 c _ hquote (fun d _ hd _ => hbackslash hd)]
      change (readText (escapeChars cs ++ '\'' :: rest)).map _ = _
      rw [ih, Option.map_some]

/-- Two literals of texts that are followed by something are the same only if the texts are, and what
follows is. -/
theorem textLiteral_append_inj {s t : String} {u v : List Char}
    (h : (textLiteral s).toList ++ u = (textLiteral t).toList ++ v) : s = t ∧ u = v := by
  simp only [textLiteral, String.toList_ofList, List.cons_append, List.append_assoc,
    List.nil_append, List.cons.injEq, true_and] at h
  have hread := congrArg readText h
  rw [readText_escapeChars, readText_escapeChars, Option.some.injEq, Prod.mk.injEq] at hread
  exact ⟨String.toList_inj.mp hread.1, hread.2⟩

end MySql

/-! ### The normal form -/

namespace Text

/-- A character that the normal form changes. -/
def Changed (c : Char) : Prop := c ∈ ['\\', '\'', '"', '\x00', '\r']

instance (c : Char) : Decidable (Changed c) := by
  unfold Changed; infer_instance

/-- The normal form has no carriage return. -/
theorem notMem_normaliseChars (cs : List Char) : '\r' ∉ normaliseChars cs := by
  fun_induction normaliseChars cs with
  | case1 => simp
  | case10 c rest _ _ _ _ _ hc _ _ ih =>
    rw [List.mem_cons, not_or]
    exact ⟨fun h => hc h.symm, ih⟩
  | _ => simpa

/-- Characters that the normal form keeps stay in it one by one. -/
theorem normaliseChars_cons {c : Char} (h : ¬ Changed c) {rest : List Char} (hrest : '\r' ∉ rest) :
    normaliseChars (c :: rest) = c :: normaliseChars rest := by
  simp only [Changed, List.mem_cons, List.not_mem_nil, or_false, not_or] at h
  obtain ⟨hbackslash, hquote, hdouble, hnul, hreturn⟩ := h
  by_cases hend : c = '\n'
  · rw [hend, normaliseChars.eq_9]
    rintro rest' rfl
    exact hrest (by simp)
  · exact normaliseChars.eq_10 c rest hbackslash hquote hdouble hnul (fun _ h _ => hreturn h) hreturn
      (fun _ h _ => hend h) hend

/-- A text without carriage returns does not become shorter. -/
theorem length_le_length_normaliseChars {cs : List Char} (h : '\r' ∉ cs) :
    cs.length ≤ (normaliseChars cs).length := by
  induction cs with
  | nil => exact Nat.le_refl 0
  | cons c rest ih =>
    simp only [List.mem_cons, not_or] at h
    have hle := ih h.2
    by_cases hchanged : Changed c
    · simp only [Changed, List.mem_cons, List.not_mem_nil, or_false] at hchanged
      rcases hchanged with rfl | rfl | rfl | rfl | rfl
      · simp only [normaliseChars, List.length_cons]
        omega
      · simp only [normaliseChars, List.length_cons]
        omega
      · simp only [normaliseChars, List.length_cons]
        omega
      · simp only [normaliseChars, List.length_cons]
        omega
      · exact absurd rfl h.1
    · rw [normaliseChars_cons hchanged h.2, List.length_cons, List.length_cons]
      omega

theorem normaliseChars_eq_self_iff (cs : List Char) :
    normaliseChars cs = cs ↔ ∀ c ∈ cs, ¬ Changed c := by
  have hnotMem {cs : List Char} (h : ∀ c ∈ cs, ¬ Changed c) : '\r' ∉ cs :=
    fun hmem => h '\r' hmem (by decide)
  constructor
  · intro h
    have hreturn : '\r' ∉ cs := h ▸ notMem_normaliseChars cs
    induction cs with
    | nil => simp
    | cons c rest ih =>
      simp only [List.mem_cons, not_or] at hreturn
      by_cases hchanged : Changed c
      · -- the character is written as two, which makes the text longer than it was
        exfalso
        have hle := length_le_length_normaliseChars hreturn.2
        have hlength := congrArg List.length h
        simp only [Changed, List.mem_cons, List.not_mem_nil, or_false] at hchanged
        rcases hchanged with rfl | rfl | rfl | rfl | rfl
        · simp only [normaliseChars, List.length_cons] at hlength
          omega
        · simp [normaliseChars] at h
        · simp [normaliseChars] at h
        · simp [normaliseChars] at h
        · exact hreturn.1 rfl
      · rw [normaliseChars_cons hchanged hreturn.2, List.cons.injEq] at h
        rw [List.forall_mem_cons]
        exact ⟨hchanged, ih h.2 hreturn.2⟩
  · intro h
    induction cs with
    | nil => rfl
    | cons c rest ih =>
      rw [List.forall_mem_cons] at h
      rw [normaliseChars_cons h.1 (hnotMem h.2), ih h.2]

/-- **The normal form is the text itself** exactly when the text has no character that it changes. -/
theorem normalise_eq_self_iff (s : String) : normalise s = s ↔ ∀ c ∈ s.toList, ¬ Changed c := by
  rw [← String.toList_inj, toList_normalise, normaliseChars_eq_self_iff]

end Text

end TypedSql
