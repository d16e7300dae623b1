import TypedSql.Proofs.Placeholders
import TypedSql.Where.Equalities
import TypedSql.Where.Filter

/-!
# Templates of conditions

The template of a condition is put together from placeholders and texts without question marks, so it
is filled part by part. What comes out is the concatenation of the parts: a comparison, a membership and
a list of equalities are written as names, operators and literals one after the other
(`Clause.render_compare`, `Clause.render_member`, `Equalities.render_eq`), whatever question marks stand
in names and values.
-/

namespace TypedSql

/-- Joined texts begin with the first of them. -/
theorem intercalate_eq_append (separator t : String) (rest : List String) :
    ∃ more, String.intercalate separator (t :: rest) = t ++ more := by
  cases rest with
  | nil => exact ⟨"", by simp⟩
  | cons t' rest =>
    exact ⟨separator ++ String.intercalate separator (t' :: rest), by simp [String.append_assoc]⟩

open Template

/-! ### Placeholders of a template -/

namespace Template

theorem slots_append {t₁ t₂ : String} (h : ¬ Straddled t₁.toList t₂.toList) :
    slots (t₁ ++ t₂).toList = slots t₁.toList ++ slots t₂.toList := by
  rw [slots, String.toList_append, pieces_append h, List.filterMap_append]
  rfl

theorem slots_of_notMem {cs : List Char} (h : '?' ∉ cs) : slots cs = [] := by
  rw [slots, pieces_of_notMem h, List.filterMap_map]
  exact List.filterMap_eq_nil_iff.mpr fun _ _ => rfl

theorem not_straddled_of_notMem {cs : List Char} (h : '?' ∉ cs) (ds : List Char) :
    ¬ Straddled cs ds := by
  rintro ⟨hopen, -⟩
  rw [EndsOpen, pieces_of_notMem h] at hopen
  obtain ⟨c, -, hc⟩ := List.mem_map.mp (List.mem_of_getLast? hopen)
  cases hc

theorem not_straddled_of_head {ds : List Char} (h : ds.head? ≠ some '?') (cs : List Char) :
    ¬ Straddled cs ds :=
  fun hstraddled => h hstraddled.2

/-- No placeholder lies across the beginning of a text without question marks. -/
theorem not_straddled_text {t : String} (h : '?' ∉ t.toList) (hne : t ≠ "") (cs : List Char)
    (t' : String) : ¬ Straddled cs (t ++ t').toList := by
  apply not_straddled_of_head
  obtain ⟨c, rest, hsplit⟩ := List.exists_cons_of_ne_nil (mt String.toList_eq_nil_iff.mp hne)
  rw [hsplit] at h
  rw [String.toList_append, hsplit, List.cons_append, List.head?_cons]
  exact fun hc => h (by rw [Option.some.inj hc]; exact List.mem_cons_self)

end Template

/-! ### Filling a template of texts and placeholders -/

namespace Formatter

variable (f : Formatter)

theorem format_of_notMem {t : String} (h : '?' ∉ t.toList) (bs : List Binding) :
    f.format t bs = t := by
  rw [← format_take, slots_of_notMem h]
  exact f.format_nil t

/-- A text in front of a template stays in front. -/
theorem format_text_append {t : String} (h : '?' ∉ t.toList) (t' : String) (bs : List Binding) :
    f.format (t ++ t') bs = t ++ f.format t' bs := by
  have hcount : (slots t.toList).length = ([] : List Binding).length := by
    rw [slots_of_notMem h]
    rfl
  have hsplit := f.format_append t t' [] bs hcount (not_straddled_of_notMem h t'.toList)
  rwa [List.nil_append, format_nil] at hsplit

theorem format_name (name : String) : f.format "??" [.name name] = f.identifier name := by
  rw [← String.toList_inj, toList_format]
  simp [fill, atName]

theorem format_hole (b : Binding) : f.format "?" [b] = f.atValue b := by
  rw [← String.toList_inj, toList_format]
  simp [fill]

/-- A placeholder that a text follows takes the first binding. -/
theorem format_hole_text {t : String} (h : '?' ∉ t.toList) (hne : t ≠ "") (t' : String)
    (b : Binding) (bs : List Binding) :
    f.format ("?" ++ (t ++ t')) (b :: bs) = f.atValue b ++ (t ++ f.format t' bs) := by
  have hsplit := f.format_append "?" (t ++ t') [b] bs rfl (not_straddled_text h hne "?".toList t')
  rwa [format_hole, format_text_append f h] at hsplit

/-- A name that a text follows takes the first binding. -/
theorem format_name_text {t : String} (h : '?' ∉ t.toList) (t' name : String) (bs : List Binding) :
    f.format ("??" ++ (t ++ t')) (.name name :: bs) = f.identifier name ++ (t ++ f.format t' bs) := by
  have hclosed : ¬ EndsOpen "??".toList := by decide
  have hsplit := f.format_append "??" (t ++ t') [.name name] bs rfl
    fun hstraddled => hclosed hstraddled.1
  rwa [format_name, format_text_append f h] at hsplit

/-- A row of placeholders with a separator takes its bindings one by one; a text may follow. -/
theorem format_row (separator t : String) (h : '?' ∉ separator.toList) (hne : separator ≠ "")
    (ht : '?' ∉ t.toList) (bs : List Binding) :
    f.format (String.intercalate separator (List.replicate bs.length "?") ++ t) bs =
      String.intercalate separator (bs.map f.atValue) ++ t := by
  induction bs with
  | nil => simpa using f.format_of_notMem ht []
  | cons b bs ih =>
    cases bs with
    | nil =>
      have hcut : t.toList.head? ≠ some '?' := fun hq => ht (List.mem_of_head? hq)
      have hsplit := f.format_append "?" t [b] [] rfl (not_straddled_of_head hcut "?".toList)
      rwa [format_hole, format_nil] at hsplit
    | cons b' bs =>
      simp only [List.length_cons, List.replicate_succ, List.map_cons,
        String.intercalate_cons_cons, String.append_assoc] at ih ⊢
      rw [f.format_hole_text h hne, ih]

end Formatter

namespace Where

variable (f : Formatter) (d : Dialect)

/-- The template of a comparison is a name, the operator and a value. -/
theorem Clause.compareTemplate_eq (comparison : Comparison) :
    "?? " ++ comparison.symbol ++ " ?" = "??" ++ (" " ++ comparison.symbol ++ " " ++ "?") := by
  cases comparison <;> rfl

theorem Comparison.noMark (comparison : Comparison) :
    '?' ∉ (" " ++ comparison.symbol ++ " ").toList := by
  cases comparison <;> decide

/-- A comparison is written as the name, the operator and the literal. -/
theorem Clause.render_compare (field : String) (comparison : Comparison) (value : Value) :
    (Clause.compare field comparison value).render f =
      f.identifier field ++ " " ++ comparison.symbol ++ " " ++ f.literal value := by
  calc (Clause.compare field comparison value).render f
      = f.format ("??" ++ (" " ++ comparison.symbol ++ " " ++ "?"))
          [.name field, .value value] := by
        rw [Clause.render, Formatter.writer_format, Clause.compareTemplate_eq]
    _ = f.identifier field ++ (" " ++ comparison.symbol ++ " " ++ f.literal value) := by
        rw [Formatter.format_name_text _ comparison.noMark, Formatter.format_hole]
        rfl
    _ = f.identifier field ++ " " ++ comparison.symbol ++ " " ++ f.literal value := by
        simp only [String.append_assoc]

/-- An equality is written as an assignment. -/
theorem Clause.render_equal (field : String) (value : Value) :
    (Clause.compare field .equal value).render d = d.assignment (field, value) := by
  have hsymbol : " = " = " " ++ Comparison.equal.symbol ++ " " := by decide
  rw [Clause.render_compare, Dialect.assignment, hsymbol]
  simp only [Dialect.formatter_identifier, Dialect.formatter_literal, String.append_assoc]

/-- The keyword of a membership. -/
def memberKeyword (negated : Bool) : String :=
  if negated then "NOT IN" else "IN"

theorem noMark_memberKeyword (negated : Bool) :
    '?' ∉ (" " ++ memberKeyword negated ++ "(").toList := by
  cases negated <;> decide

/-- The template of a membership is a name and a row of values in parentheses. -/
theorem Clause.memberTemplate_eq (negated : Bool) (count : Nat) :
    memberTemplate negated count = "??" ++ (" " ++ memberKeyword negated ++ "("
      ++ (String.intercalate "," (List.replicate count "?") ++ ")")) := by
  have hname : "?? " = "??" ++ " " := rfl
  rw [memberTemplate, hname]
  simp only [memberKeyword, String.append_assoc]

/-- A membership in a list with items is written as the name, the keyword and the literals. -/
theorem Clause.render_member (field : String) {values : List Value} (h : values ≠ [])
    (negated : Bool) :
    (Clause.member field values negated).render f =
      f.identifier field ++ " " ++ memberKeyword negated ++ "("
        ++ String.intercalate "," (values.map f.literal) ++ ")" := by
  obtain ⟨v, rest, rfl⟩ := List.exists_cons_of_ne_nil h
  have hrow := f.format_row "," ")" (by decide) (by decide) (by decide)
    ((v :: rest).map .value)
  rw [List.length_map, List.map_map] at hrow
  calc (Clause.member field (v :: rest) negated).render f
      = f.format ("??" ++ (" " ++ memberKeyword negated ++ "("
          ++ (String.intercalate "," (List.replicate (v :: rest).length "?") ++ ")")))
          (.name field :: (v :: rest).map .value) := by
        rw [Clause.render, Formatter.writer_format, Clause.memberTemplate_eq]
        rfl
    _ = f.identifier field ++ (" " ++ memberKeyword negated ++ "("
          ++ (String.intercalate "," ((v :: rest).map f.literal) ++ ")")) := by
        rw [Formatter.format_name_text _ (noMark_memberKeyword negated), hrow]
        rfl
    _ = f.identifier field ++ " " ++ memberKeyword negated ++ "("
          ++ String.intercalate "," ((v :: rest).map f.literal) ++ ")" := by
        simp only [String.append_assoc]

/-- The template of equalities is a row of placeholders. -/
theorem Equalities.template_eq {e : Equalities} (h : e.params ≠ []) :
    e.template = "WHERE " ++ String.intercalate " AND " (List.replicate e.params.length "?") := by
  have hne : ¬ e.params.isEmpty = true := by simpa using h
  rw [Equalities.template, if_neg hne, List.map_const']

/-- Equalities are written as their assignments, joined with `AND`. -/
theorem Equalities.render_eq (e : Equalities) :
    e.render d =
      if e.params = [] then "" else "WHERE " ++ String.intercalate " AND " (e.params.map d.assignment) := by
  obtain ⟨params⟩ := e
  cases params with
  | nil => rfl
  | cons pair rest =>
    have hne : pair :: rest ≠ [] := List.cons_ne_nil pair rest
    have hrow := d.formatter.format_row " AND " "" (by decide) (by decide) (by decide)
      ((pair :: rest).map fun pair => .assignments [pair])
    rw [List.length_map, List.map_map, String.append_empty, String.append_empty] at hrow
    rw [Equalities.render, Formatter.writer_format, Equalities.template_eq hne,
      Formatter.format_text_append _ (by decide), hrow, if_neg hne]
    rfl

/-- The filter that compares every field of a record with its value. -/
def equalFilter (filter : Record) : Filter :=
  { all := filter.map fun entry => .compare entry.1 .equal entry.2, any := [] }

theorem equalFilter_render {filter : Record} (h : filter ≠ []) :
    (equalFilter filter).render d =
      "WHERE " ++ String.intercalate " AND " (filter.map d.assignment) := by
  have hclauses : (equalFilter filter).all.map (Clause.render d) = filter.map d.assignment := by
    rw [equalFilter, List.map_map]
    exact List.map_congr_left fun entry _ => Clause.render_equal d entry.1 entry.2
  obtain ⟨entry, rest, rfl⟩ := List.exists_cons_of_ne_nil h
  rw [← hclauses]
  rfl

/-- Equalities are written as the filter that compares each field with its bound value. -/
theorem Equalities.render_eq_equalFilter (e : Equalities) :
    e.render d = (equalFilter e.params).render d := by
  rw [Equalities.render_eq]
  split
  · next hnone =>
    rw [hnone]
    rfl
  · next hsome => rw [equalFilter_render d hsome]

end Where

/-! ### Bindings that fit -/

namespace Template

/-- The placeholder that a binding is for: a name has two question marks, a value and a list of
assignments have one. -/
def slotOf : Binding → Slot
  | .name _ => .name
  | .value _ | .assignments _ => .value

/-- The bindings are the ones that the placeholders ask for: as many, of the same sorts, in the same
order. -/
def Fits (template : String) (bs : List Binding) : Prop :=
  slots template.toList = bs.map slotOf

theorem Fits.append {t₁ t₂ : String} {bs₁ bs₂ : List Binding} (h₁ : Fits t₁ bs₁) (h₂ : Fits t₂ bs₂)
    (hseam : ¬ Straddled t₁.toList t₂.toList) : Fits (t₁ ++ t₂) (bs₁ ++ bs₂) := by
  rw [Fits, slots_append hseam, h₁, h₂, List.map_append]

theorem fits_text {t : String} (h : '?' ∉ t.toList) : Fits t [] :=
  slots_of_notMem h

/-- A text in front of a template takes no binding. -/
theorem Fits.text_append {t t' : String} {bs : List Binding} (h : '?' ∉ t.toList)
    (h' : Fits t' bs) : Fits (t ++ t') bs :=
  (fits_text h).append h' (not_straddled_of_notMem h t'.toList)

/-- A row of placeholders with a separator fits as many values; a text may follow. -/
theorem fits_row (separator t : String) (h : '?' ∉ separator.toList) (hne : separator ≠ "")
    (ht : '?' ∉ t.toList) {bs : List Binding} (hbs : ∀ b ∈ bs, slotOf b = .value) :
    Fits (String.intercalate separator (List.replicate bs.length "?") ++ t) bs := by
  induction bs with
  | nil => simpa using fits_text ht
  | cons b bs ih =>
    rw [List.forall_mem_cons] at hbs
    have hfirst : Fits "?" [b] := by
      rw [Fits, List.map_singleton, hbs.1]
      rfl
    cases bs with
    | nil =>
      have hcut : t.toList.head? ≠ some '?' := fun hq => ht (List.mem_of_head? hq)
      exact hfirst.append (fits_text ht) (not_straddled_of_head hcut _)
    | cons b' bs =>
      have hrest := (ih hbs.2).text_append h
      simp only [List.length_cons, List.replicate_succ, String.intercalate_cons_cons,
        String.append_assoc] at hrest ⊢
      exact hfirst.append hrest (not_straddled_text h hne _ _)

end Template

namespace Where

/-- The bindings of the placeholders for equalities. -/
def Equalities.bindings (e : Equalities) : List Binding :=
  e.params.map fun pair => .assignments [pair]

/-- The template of a condition; that of a membership in a list without items has no placeholder. -/
def Clause.template : Clause → String
  | .compare _ comparison _ => "?? " ++ comparison.symbol ++ " ?"
  | .member _ [] negated => if negated then "1=1" else "1=0"
  | .member _ (_ :: rest) negated => memberTemplate negated (rest.length + 1)

/-- The bindings of the placeholders of a condition. -/
def Clause.bindings : Clause → List Binding
  | .compare field _ value => [.name field, .value value]
  | .member _ [] _ => []
  | .member field (v :: rest) _ => .name field :: (v :: rest).map .value

theorem Clause.render_eq_format (d : Dialect) (clause : Clause) :
    clause.render d = d.format clause.template clause.bindings := by
  match clause with
  | .compare _ _ _ => rfl
  | .member _ [] negated =>
    cases negated <;> exact (d.formatter.format_nil _).symm
  | .member _ (_ :: _) _ => rfl

/-- The placeholders of a condition fit its bindings. -/
theorem Clause.fits (clause : Clause) : Fits clause.template clause.bindings := by
  have hname (field : String) : Fits "??" [.name field] := rfl
  match clause with
  | .compare field comparison value =>
    have hvalue : Fits "?" [.value value] := rfl
    rw [Clause.template, compareTemplate_eq]
    exact (hname field).append (hvalue.text_append comparison.noMark)
      (not_straddled_of_head (by simp) _)
  | .member _ [] negated =>
    cases negated
    · exact fits_text (t := "1=0") (by decide)
    · exact fits_text (t := "1=1") (by decide)
  | .member field (v :: rest) negated =>
    have hvalues : ∀ b ∈ (v :: rest).map .value, slotOf b = .value :=
      List.forall_mem_map.mpr fun _ _ => rfl
    have hrow := fits_row "," ")" (by decide) (by decide) (by decide) hvalues
    rw [List.length_map] at hrow
    rw [Clause.template, memberTemplate_eq]
    exact (hname field).append (hrow.text_append (noMark_memberKeyword negated))
      (not_straddled_of_head (by simp) _)

/-- The placeholders of equalities fit their bindings. -/
theorem Equalities.fits (e : Equalities) : Fits e.template e.bindings := by
  by_cases h : e.params = []
  · rw [Fits, Equalities.template, Equalities.bindings, h]
    rfl
  · have hvalues : ∀ b ∈ e.bindings, slotOf b = .value := List.forall_mem_map.mpr fun _ _ => rfl
    have hlength : e.bindings.length = e.params.length := List.length_map _
    have hrow := fits_row " AND " "" (by decide) (by decide) (by decide) hvalues
    rw [hlength, String.append_empty] at hrow
    rw [Equalities.template_eq h]
    exact hrow.text_append (by decide)

/-- **Conditions are concatenations**: in every dialect a list of equalities is written as its names and
literals, joined with `AND`, a comparison as its name, operator and literal, and a membership as its name
and the list of its literals. All of them are templates whose placeholders fit their bindings, whatever
stands in names and values. -/
theorem conditions_are_concatenations (d : Dialect) :
    (∀ e : Equalities, e.render d =
        if e.params = [] then ""
        else "WHERE " ++ String.intercalate " AND "
          (e.params.map fun (name, value) => d.identifier name ++ " = " ++ d.literal value)) ∧
      (∀ (field : String) (comparison : Comparison) (value : Value),
        (Clause.compare field comparison value).render d =
          d.identifier field ++ " " ++ comparison.symbol ++ " " ++ d.literal value) ∧
      (∀ (field : String) (values : List Value) (negated : Bool), values ≠ [] →
        (Clause.member field values negated).render d =
          d.identifier field ++ (if negated then " NOT IN(" else " IN(")
            ++ String.intercalate "," (values.map d.literal) ++ ")") ∧
      (∀ e : Equalities, e.render d = d.format e.template e.bindings ∧ Fits e.template e.bindings) ∧
      ∀ clause : Clause, clause.render d = d.format clause.template clause.bindings ∧
        Fits clause.template clause.bindings := by
  refine ⟨Equalities.render_eq d, Clause.render_compare d, fun field values negated h => ?_,
    fun e => ⟨rfl, e.fits⟩, fun clause => ⟨clause.render_eq_format d, clause.fits⟩⟩
  have hkeyword : " " ++ memberKeyword negated ++ "(" = if negated then " NOT IN(" else " IN(" := by
    cases negated <;> rfl
  rw [Clause.render_member d field h, ← hkeyword]
  simp only [Dialect.formatter_identifier, Dialect.formatter_literal, String.append_assoc]

/-- Question marks in a name and in the texts of a list. -/
theorem conditions_are_concatenations_marks :
    let values : List Value := [.text "?", .text "a??"]
    values ≠ [] ∧ (Clause.member "b?" values true).render Dialect.tagged = "\"b?\" NOT IN(<?>,<a??>)" := by
  intro values
  refine ⟨by simp [values], ?_⟩
  rw [(conditions_are_concatenations .tagged).2.2.1 "b?" values true (by simp [values])]
  decide

end Where

end TypedSql
