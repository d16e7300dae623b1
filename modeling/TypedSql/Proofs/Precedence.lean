import TypedSql.Proofs.Conditions
import TypedSql.Proofs.Literals
import TypedSql.Proofs.Pieces
import TypedSql.Proofs.Template

/-!
# The where clause of a filter read back

A where clause has no parentheses, so a server reads it by precedence: it is cut at `OR` and each part
again at `AND`. What a filter writes is read in this way as what the filter says (`filter_read_by_precedence`): all
conditions of its first group together, or any one of its second group. The connectives cannot be
confused with what stands in a condition, because outside quotes a condition has neither the letter `A`
nor the letter `R`.
-/

namespace TypedSql

open Scan

/-! ### Literals and names -/

namespace MySql

/-- Letters of the two connectives, and the parentheses of a list. Neither stands outside quotes in a
name or in the literal of a scalar. -/
def structural : List Char := ['A', 'R', '(', ')']

/-- A number is written outside quotes, with characters that are not structural. -/
theorem avoids_number {s : String}
    (h : ∀ c ∈ s.toList, c.isDigit = true ∨ c ∈ ['-', '.', 'N', 'a', 'i', 'n', 'f']) :
    Avoids structural s := by
  have hdigit : ∀ d ∈ structural, d.isDigit = false := List.all_iff_forall_prop.mp (by decide)
  have hsign : ∀ d ∈ ['-', '.', 'N', 'a', 'i', 'n', 'f'], Unquoting d ∧ d ∉ structural :=
    List.all_iff_forall_prop.mp (by decide)
  refine avoids_of_unquoting fun c hc => ?_
  rcases h c hc with hc | hc
  · refine ⟨(inert_of_isAlphanum (by simp [Char.isAlphanum, hc])).unquoting, fun hmem => ?_⟩
    rw [hdigit c hmem] at hc
    cases hc
  · exact hsign c hc

/-- Of a quoted text only the quote stands outside. -/
theorem avoids_quoted {cs : List Char} (hfinish : finish .quoted cs = .quoted)
    (hplain : plainChars .quoted cs = []) :
    Avoids structural (String.ofList ('\'' :: (cs ++ ['\'']))) := by
  obtain ⟨hend, hchars⟩ := scan_quoted hfinish hplain
  constructor
  · rw [String.toList_ofList, hend]
  · rw [String.toList_ofList, hchars]
    exact List.all_iff_forall_prop.mp (by decide)

theorem avoids_identifier (name : String) : Avoids structural (identifier name) := by
  obtain ⟨hfinish, hplain⟩ := scan_identifier name
  refine ⟨hfinish, fun c hc hmem => ?_⟩
  rcases hplain c hmem with rfl | rfl
  all_goals exact absurd hc (by decide)

/-- The literal of a value that satisfies a type is not empty and has no structural character. -/
theorem avoids_literal {type : FieldType} {v : Value} (h : type.accepts v = true) :
    Avoids structural (literal v) ∧ literal v ≠ "" := by
  have hquoted (cs : List Char) : String.ofList ('\'' :: cs) ≠ "" := by
    simp [← String.toList_inj]
  cases v with
  | int n =>
    rw [literal]
    refine ⟨avoids_number fun c hc => ?_, ?_⟩
    · rcases Decimal.mem_integerText hc with hdigit | rfl
      · exact .inl hdigit
      · exact .inr (by decide)
    · exact Decimal.integerText_ne_empty _
  | float x =>
    have hfinite : x.isFinite = true := by cases type <;> simp_all [FieldType.accepts, Value.isNumeric]
    rw [literal, if_pos hfinite]
    exact ⟨avoids_number fun c hc => Decimal.mem_floatText hc, Decimal.floatText_ne_empty x⟩
  | text s =>
    rw [literal]
    exact ⟨avoids_quoted (scan_escapeChars s.toList).1 (scan_escapeChars s.toList).2, hquoted _⟩
  | datetime t =>
    rw [literal, quote_eq_ofList]
    have hscan := scan_of_quotable fun c (hc : c ∈ t.text.toList) => quotable_of_mem_text hc
    exact ⟨avoids_quoted hscan.1 hscan.2, hquoted _⟩
  | _ => cases type <;> cases h

end MySql

namespace Where

/-! ### Conditions -/

namespace Clause

theorem avoids_render_compare {type : FieldType} {value : Value} (h : type.accepts value = true)
    (field : String) (comparison : Comparison) :
    Avoids MySql.structural ((compare field comparison value).render .mySql) := by
  have hsymbol : Avoids MySql.structural comparison.symbol := by
    cases comparison <;> decide
  rw [Clause.render_compare]
  exact ((((MySql.avoids_identifier field).append (by decide)).append hsymbol).append
    (by decide)).append (MySql.avoids_literal h).1

/-- A membership has parentheses around a text that is not empty, and nowhere else. -/
theorem render_member_parts {type : FieldType} {items : List Value} (hne : items ≠ [])
    (h : ∀ v ∈ items, type.accepts v = true) (field : String) (negated : Bool) :
    ∃ head list, (member field items negated).render .mySql = head ++ "(" ++ list ++ ")" ∧
      Avoids MySql.structural head ∧ Avoids MySql.structural list ∧ list ≠ "" := by
  have hkeyword : Avoids MySql.structural (memberKeyword negated) := by
    cases negated <;> decide
  refine ⟨_, _, Clause.render_member Dialect.mySql field hne negated,
    ((MySql.avoids_identifier field).append (by decide)).append hkeyword,
    .intercalate (by decide) fun s hs => ?_, ?_⟩
  · obtain ⟨v, hv, rfl⟩ := List.mem_map.mp hs
    exact (MySql.avoids_literal (h v hv)).1
  · obtain ⟨v, rest, rfl⟩ := List.exists_cons_of_ne_nil hne
    obtain ⟨more, hmore⟩ := intercalate_eq_append "," (MySql.literal v) (rest.map MySql.literal)
    have hliteral := (MySql.avoids_literal (h v (by simp))).2
    have hlist : String.intercalate "," ((v :: rest).map Dialect.mySql.formatter.literal) =
        MySql.literal v ++ more := hmore
    rw [hlist]
    intro hempty
    exact hliteral (String.append_eq_empty_iff.mp hempty).1

variable {mapping : Mapping} {clause : Clause}

/-- No connective stands outside quotes in a condition. -/
theorem Typed.avoids_render (h : clause.Typed mapping) : Avoids ['A', 'R'] (clause.render .mySql) := by
  have hsubset : ['A', 'R'] ⊆ MySql.structural := by simp [MySql.structural]
  obtain ⟨type, -, hvalues⟩ := h
  cases clause with
  | compare field comparison value =>
    have hvalue := hvalues value (by simp [values])
    exact (avoids_render_compare hvalue field comparison).mono hsubset
  | member field items negated =>
    by_cases hitems : items = []
    · rw [hitems, render]
      cases negated <;> decide
    · obtain ⟨head, list, hrender, hhead, hlist, -⟩ :=
        render_member_parts hitems hvalues field negated
      rw [hrender]
      exact (((hhead.mono hsubset).append (by decide)).append (hlist.mono hsubset)).append (by decide)

/-- Outside quotes the parentheses of a list stand around what its items have there. -/
theorem plainChars_parentheses {head list : String} (hhead : Avoids MySql.structural head)
    (hlist : Avoids MySql.structural list) :
    plainChars .plain (head ++ "(" ++ list ++ ")").toList =
      plainChars .plain head.toList ++ '(' :: (plainChars .plain list.toList ++ [')']) := by
  have hopen : Avoids [] (head ++ "(") := (hhead.mono (by simp)).append (by decide)
  have hparen : plainChars .plain "(".toList = ['('] := by decide
  have hclose : plainChars .plain ")".toList = [')'] := by decide
  rw [plainChars_toList_append (hopen.append (hlist.mono (by simp))).finish_eq,
    plainChars_toList_append hopen.finish_eq, plainChars_toList_append hhead.finish_eq, hparen, hclose]
  simp

/-- No condition has a list without items: what is asked of such a list is a constant. -/
theorem Typed.not_occurs_empty_list (h : clause.Typed mapping) :
    ¬ Occurs "IN()" (clause.render .mySql) := by
  have hopen : '(' ∈ MySql.structural := by decide
  have hclose : ')' ∈ MySql.structural := by decide
  intro hoccurs
  obtain ⟨before, after, hsplit⟩ :=
    hoccurs.infix_plainChars (List.all_iff_forall_prop.mp (by decide))
  have hmem : '(' ∈ plainChars .plain (clause.render .mySql).toList := by
    rw [← hsplit]
    simp
  obtain ⟨type, -, hvalues⟩ := h
  cases clause with
  | compare field comparison value =>
    have hvalue := hvalues value (by simp [values])
    exact (avoids_render_compare hvalue field comparison).notMem '(' hopen hmem
  | member field items negated =>
    by_cases hitems : items = []
    · rw [hitems, render] at hmem
      cases negated <;> exact absurd hmem (by decide)
    · obtain ⟨head, list, hrender, hhead, hlist, hne⟩ :=
        render_member_parts hitems hvalues field negated
      -- the only opening parenthesis is the one in front of the list
      rw [hrender, plainChars_parentheses hhead hlist] at hsplit
      have hrest : '(' ∉ plainChars .plain list.toList ++ [')'] := by
        simp [hlist.notMem '(' hopen]
      have hsame : plainChars .plain head.toList ++ '(' :: (plainChars .plain list.toList ++ [')']) =
          (before ++ ['I', 'N']) ++ '(' :: (')' :: after) := by
        rw [← hsplit]
        simp
      obtain ⟨-, -, hbehind⟩ :=
        (List.append_cons_inj_of_notMem (hhead.notMem '(' hopen) hrest).mp hsame
      -- behind it stands the first character of the first item
      obtain ⟨c, cs, hcs⟩ := List.exists_cons_of_ne_nil (mt String.toList_eq_nil_iff.mp hne)
      have hnotMem := hlist.notMem ')' hclose
      rw [hcs, plainChars, if_pos rfl] at hbehind hnotMem
      exact hnotMem (by rw [(List.cons.inj hbehind).1]; exact List.mem_cons_self)

end Clause

/-! ### Filters -/

/-- The conjunctions of conditions each of which is enough: the first group as a whole, and each
condition of the second group. -/
def Filter.disjuncts (f : Filter) : List (List Clause) :=
  (if f.all = [] then [] else [f.all]) ++ f.any.map fun clause => [clause]

/-- The parts of a condition read by precedence: `AND` binds tighter than `OR`. -/
def readCondition (body : String) : List (List String) :=
  (pieces " OR " body).map (pieces " AND ")

theorem Filter.render_eq_disjuncts (w : Writer) {f : Filter} (h : f.isEmpty = false) :
    f.render w = "WHERE " ++ String.intercalate " OR "
      (f.disjuncts.map fun conjunction => String.intercalate " AND " (conjunction.map (Clause.render w))) := by
  obtain ⟨all, any⟩ := f
  have hany : (any.map fun clause => [clause]).map
      (fun conjunction => String.intercalate " AND " (conjunction.map (Clause.render w))) =
        any.map (Clause.render w) := by
    rw [List.map_map]
    exact List.map_congr_left fun clause _ => by simp
  unfold Filter.disjuncts
  rw [List.map_append, hany]
  cases all with
  | nil =>
    cases any with
    | nil => cases h
    | cons clause rest => rfl
  | cons first others =>
    cases any with
    | nil => simp [Filter.render]
    | cons clause rest =>
      simp [Filter.render, String.intercalate_cons_cons, String.append_assoc]

theorem Filter.mem_disjuncts {f : Filter} {conjunction : List Clause} (h : conjunction ∈ f.disjuncts) :
    conjunction ≠ [] ∧ ∀ clause ∈ conjunction, clause ∈ f.all ++ f.any := by
  rcases List.mem_append.mp h with hall | hany
  · split at hall
    · cases hall
    · next hne =>
      rw [List.mem_singleton.mp hall]
      exact ⟨hne, fun clause hc => List.mem_append_left _ hc⟩
  · obtain ⟨clause, hc, rfl⟩ := List.mem_map.mp hany
    refine ⟨List.cons_ne_nil _ _, fun clause' hc' => ?_⟩
    rw [List.mem_singleton.mp hc']
    exact List.mem_append_right _ hc

theorem Filter.disjuncts_ne_nil {f : Filter} (h : f.isEmpty = false) : f.disjuncts ≠ [] := by
  obtain ⟨all, any⟩ := f
  cases all with
  | nil =>
    cases any with
    | nil => cases h
    | cons clause rest => simp [disjuncts]
  | cons clause rest => simp [disjuncts]

/-- Typed conditions that are joined with connectives are read back by precedence. -/
theorem readCondition_intercalate {mapping : Mapping} {disjuncts : List (List Clause)}
    (hne : disjuncts ≠ []) (h : ∀ conjunction ∈ disjuncts, conjunction ≠ [] ∧
      ∀ clause ∈ conjunction, clause.Typed mapping) :
    readCondition (String.intercalate " OR " (disjuncts.map fun conjunction =>
      String.intercalate " AND " (conjunction.map (Clause.render .mySql)))) =
        disjuncts.map (List.map (Clause.render .mySql)) := by
  have hor : ∀ c ∈ " OR ".toList, Inert c := List.all_iff_forall_prop.mp (by decide)
  have hand : ∀ c ∈ " AND ".toList, Inert c := List.all_iff_forall_prop.mp (by decide)
  have hclause {conjunction : List Clause} (hc : conjunction ∈ disjuncts) :
      ∀ s ∈ conjunction.map (Clause.render .mySql), Avoids ['A', 'R'] s := by
    intro s hs
    obtain ⟨clause, hmem, rfl⟩ := List.mem_map.mp hs
    exact ((h conjunction hc).2 clause hmem).avoids_render
  unfold readCondition
  rw [pieces_intercalate hor (by decide : 'R' ∈ " OR ".toList) (by simpa using hne), List.map_map]
  · refine List.map_congr_left fun conjunction hc => ?_
    refine pieces_intercalate hand (by decide : 'A' ∈ " AND ".toList)
      (by simpa using (h conjunction hc).1) fun s hs => ?_
    exact (hclause hc s hs).mono (by simp)
  · intro s hs
    obtain ⟨conjunction, hc, rfl⟩ := List.mem_map.mp hs
    exact .intercalate (by decide) fun t ht => (hclause hc t ht).mono (by simp)

/-- **A filter is read back by precedence**: the where clause of a filter that has conditions is read
as what the filter says, whatever stands in names and values. The parts between `OR` are the first
group as a whole, if it has conditions, and each condition of the second group; the parts of these
between `AND` are the conditions in order. None of them has a list without items. -/
theorem filter_read_by_precedence (filter : Record) (mapping : Mapping) (f : Filter)
    (h : (Filter.ofRecord filter mapping).result = .ok f) (hne : f.isEmpty = false) :
    ∃ body, f.render .mySql = "WHERE " ++ body ∧
      readCondition body = f.disjuncts.map (List.map (Clause.render .mySql)) ∧
      ∀ conjunction ∈ readCondition body, ∀ piece ∈ conjunction, ¬ Occurs "IN()" piece := by
  have htyped {conjunction : List Clause} (hc : conjunction ∈ f.disjuncts) :
      ∀ clause ∈ conjunction, clause.Typed mapping := fun clause hmem =>
    Filter.typed_of_ofRecord h ((Filter.mem_disjuncts hc).2 clause hmem)
  have hread := readCondition_intercalate (Filter.disjuncts_ne_nil hne) fun conjunction hc =>
    ⟨(Filter.mem_disjuncts hc).1, htyped hc⟩
  refine ⟨_, Filter.render_eq_disjuncts .mySql hne, hread, ?_⟩
  rw [hread]
  intro pieces hpieces piece hpiece
  obtain ⟨conjunction, hc, rfl⟩ := List.mem_map.mp hpieces
  obtain ⟨clause, hmem, rfl⟩ := List.mem_map.mp hpiece
  exact (htyped hc clause hmem).not_occurs_empty_list

/-- Connectives, quotes, dots and question marks in names and values are not read as syntax. -/
theorem filter_read_by_precedence_connectives :
    let mapping : Mapping := ⟨[("a OR b", .string), ("c.d", .number)]⟩
    let filter : Record :=
      [("and", .map [("a OR b", .text "x' AND y?"), ("c.d", .map [(">", .int 1), ("in", .list [])])]),
        ("or", .map [("c.d", .map [("not in", .list [.int 2, .text "3", .int 4])]),
          ("a OR b", .text "IN() OR 1=1")])]
    let f : Filter :=
      { all := [.compare "a OR b" .equal (.text "x' AND y?"), .compare "c.d" .greater (.int 1),
          .member "c.d" [] false]
        any := [.member "c.d" [.int 2, .int 4] true, .compare "a OR b" .equal (.text "IN() OR 1=1")] }
    (Filter.ofRecord filter mapping).result = .ok f ∧ f.isEmpty = false ∧
      ∃ body, f.render .mySql = "WHERE " ++ body ∧
        readCondition body =
          [["\x60a OR b\x60 = 'x\\' AND y?'", "\x60c\x60.\x60d\x60 > 1", "1=0"],
            ["\x60c\x60.\x60d\x60 NOT IN(2,4)"], ["\x60a OR b\x60 = 'IN() OR 1=1'"]] ∧
        ∀ conjunction ∈ readCondition body, ∀ piece ∈ conjunction, ¬ Occurs "IN()" piece := by
  intro mapping filter f
  have hfilter : (Filter.ofRecord filter mapping).result = .ok f := rfl
  exact ⟨hfilter, rfl, filter_read_by_precedence filter mapping f hfilter rfl⟩

end Where

end TypedSql
