import TypedSql.Proofs.Contributions
import TypedSql.Proofs.Template
import TypedSql.Proofs.TextForms

/-!
# Equalities and filters

A where object of equalities can also be given as the group `and` of a filter. Both compile to the same
conditions except for texts: an equality binds a text in normal form, which is also the form in which
data assigns it, and a filter compares with the text as it is. So the two where clauses are the same
exactly when the normal form changes no text of the where object (`equalities_agree_iff`).
-/

namespace TypedSql.Where

/-! ### What both compilers bind -/

/-- The entry is not the text of a text field, or the normal form changes nothing in the text. -/
def EntryVerbatim (mapping : Mapping) (entry : String × Value) : Prop :=
  ∀ s, entry.2 = .text s → mapping.get? entry.1 = some .string → ∀ c ∈ s.toList, ¬ Text.Changed c

/-- The normal form changes no text of the where object. -/
def Verbatim (mapping : Mapping) (filter : Record) : Prop :=
  ∀ entry ∈ filter, EntryVerbatim mapping entry

variable {mapping : Mapping}

namespace Equalities

/-- A value that can be bound satisfies its type. -/
theorem accepts_of_bind?_eq_some {type : FieldType} {value bound : Value}
    (h : bind? type value = some bound) : type.accepts value = true := by
  cases type with
  | string =>
    cases value with
    | text s => rfl
    | _ => cases h
  | number =>
    by_contra hnot
    simp [bind?, hnot] at h
  | datetime =>
    by_contra hnot
    simp [bind?, hnot] at h
  | _ => cases h

/-- A value is bound as it is unless it is the text of a text field. -/
theorem bind?_eq_some_cases {type : FieldType} {value bound : Value}
    (h : bind? type value = some bound) :
    (∃ s, type = .string ∧ value = .text s ∧ bound = .text (Text.normalise s)) ∨
      (type ≠ .string ∧ bound = value) := by
  cases type with
  | string =>
    cases value with
    | text s => exact .inl ⟨s, rfl, rfl, (Option.some.inj h).symm⟩
    | _ => cases h
  | number =>
    have haccepts := accepts_of_bind?_eq_some h
    exact .inr ⟨by decide, by simpa [bind?, haccepts, eq_comm] using h⟩
  | datetime =>
    have haccepts := accepts_of_bind?_eq_some h
    exact .inr ⟨by decide, by simpa [bind?, haccepts, eq_comm] using h⟩
  | _ => cases h

/-- An entry that an equality can bind is compared with its value in a filter. -/
theorem Binds.entry {entry pair : String × Value} (h : Binds mapping entry pair) :
    EntryFits mapping entry ∧ entryConditions mapping entry = [.compare entry.1 .equal entry.2] := by
  obtain ⟨-, type, htype, hbind⟩ := h
  have haccepts := accepts_of_bind?_eq_some hbind
  obtain ⟨name, value⟩ := entry
  unfold EntryFits entryConditions
  rw [htype]
  cases value with
  | null => simp at haccepts
  | map operators => cases type <;> cases haccepts
  | _ => exact ⟨haccepts, rfl⟩

/-- The value is bound as it is exactly when the normal form does not change it. -/
theorem Binds.eq_iff {entry pair : String × Value} (h : Binds mapping entry pair) :
    entry = pair ↔ EntryVerbatim mapping entry := by
  obtain ⟨name, value⟩ := entry
  obtain ⟨name', bound⟩ := pair
  obtain ⟨rfl, type, htype, hbind⟩ := h
  rw [Prod.mk.injEq, eq_self_iff_true, true_and]
  rcases bind?_eq_some_cases hbind with ⟨s, rfl, rfl, rfl⟩ | ⟨hne, rfl⟩
  · rw [Value.text.injEq, eq_comm, Text.normalise_eq_self_iff]
    constructor
    · rintro h s' hs' -
      obtain rfl : s = s' := Value.text.inj hs'
      exact h
    · exact fun h => h s rfl htype
  · refine iff_of_true rfl fun s hs hstring => absurd ?_ hne
    exact Option.some.inj (htype.symm.trans hstring)

variable {filter : Record} {params : List (String × Value)}

theorem eq_params_iff (h : List.Forall₂ (Binds mapping) filter params) :
    filter = params ↔ Verbatim mapping filter := by
  unfold Verbatim
  induction h with
  | nil => simp
  | cons hbinds _ ih => rw [List.cons.injEq, hbinds.eq_iff, ih, List.forall_mem_cons]

/-! ### What both clauses say -/

/-- Two assignments of an entry and its bound value are the same text, with what follows them, only if
the value is bound as it is. -/
theorem Binds.assignment_append_inj {entry pair : String × Value} (h : Binds mapping entry pair)
    {u v : List Char} (heq : (Dialect.mySql.assignment entry).toList ++ u =
      (Dialect.mySql.assignment pair).toList ++ v) : entry = pair ∧ u = v := by
  obtain ⟨name, value⟩ := entry
  obtain ⟨name', bound⟩ := pair
  obtain ⟨rfl, type, -, hbind⟩ := h
  simp only [Dialect.assignment, String.toList_append, List.append_assoc,
    List.append_cancel_left_eq] at heq
  rcases bind?_eq_some_cases hbind with ⟨s, -, rfl, rfl⟩ | ⟨-, rfl⟩
  · obtain ⟨htext, hrest⟩ := MySql.textLiteral_append_inj heq
    exact ⟨by rw [← htext], hrest⟩
  · exact ⟨rfl, List.append_cancel_left heq⟩

theorem eq_of_intercalate_eq (h : List.Forall₂ (Binds mapping) filter params)
    (heq : String.intercalate " AND " (filter.map Dialect.mySql.assignment) =
      String.intercalate " AND " (params.map Dialect.mySql.assignment)) : filter = params := by
  -- both texts begin with an assignment to the same name, so they are compared value by value
  induction h with
  | nil => rfl
  | @cons entry pair filter params hbinds hrest ih =>
    cases hrest with
    | nil =>
      simp only [List.map_cons, List.map_nil, String.intercalate_singleton] at heq
      have htext : (Dialect.mySql.assignment entry).toList ++ [] =
          (Dialect.mySql.assignment pair).toList ++ [] := by rw [heq]
      rw [(hbinds.assignment_append_inj htext).1]
    | cons hbinds' hrest' =>
      simp only [List.map_cons, String.intercalate_cons_cons] at heq ih
      rw [← String.toList_inj] at heq
      simp only [String.toList_append, List.append_assoc] at heq
      obtain ⟨hhead, htail⟩ := hbinds.assignment_append_inj heq
      rw [hhead, ih (String.toList_inj.mp (List.append_cancel_left htail))]

end Equalities

/-- Equalities that compile also compile as the group `and` of a filter. -/
theorem ofRecord_and_of_binds {filter : Record} {params : List (String × Value)}
    (hne : filter ≠ []) (h : List.Forall₂ (Equalities.Binds mapping) filter params) :
    (Filter.ofRecord [("and", .map filter)] mapping).result = .ok (equalFilter filter) := by
  have hentries : (∀ entry ∈ filter, EntryFits mapping entry) ∧
      filter.flatMap (entryConditions mapping) =
        filter.map fun entry => .compare entry.1 .equal entry.2 := by
    clear hne
    induction h with
    | nil => simp
    | cons hbinds _ ih =>
      obtain ⟨hfits, hconditions⟩ := hbinds.entry
      rw [List.forall_mem_cons, List.flatMap_cons, hconditions, ih.2]
      exact ⟨⟨hfits, ih.1⟩, rfl⟩
  have hgroup : group? [("and", .map filter)] "and" = some filter := by
    obtain ⟨entry, rest, rfl⟩ := List.exists_cons_of_ne_nil hne
    rfl
  have hand : groupEntries [("and", .map filter)] "and" = filter := by
    rw [groupEntries, hgroup, Option.getD_some]
  have hor : groupEntries [("and", .map filter)] "or" = [] := rfl
  refine Filter.ofRecord_eq_ok_iff.mpr ⟨.inl (by simp [hgroup]), fun key hkey => ?_, ?_⟩
  · simp only [List.mem_cons, List.not_mem_nil, or_false] at hkey
    rcases hkey with rfl | rfl
    · rw [hand]
      exact hentries.1
    · rw [hor]
      simp
  · rw [hand, hor, hentries.2]
    rfl

/-- Where both clauses are the same, a select with the equalities is the query with the group. -/
theorem get_eq_query (b : Builder) {filter : Record} {e : Equalities} {f : Filter} (hne : filter ≠ [])
    (he : Equalities.ofRecord filter mapping = .ok e)
    (hf : (Filter.ofRecord [("and", .map filter)] mapping).result = .ok f)
    (hrender : f.render b.writer = e.render b.writer) {r : Request}
    (hmapping : r.mapping = some mapping) (hfilter : r.filter = some filter) (hcount : r.count = none) :
    (b.build .get r).result =
      (b.build .query { r with filter := some [("and", .map filter)] }).result := by
  have htarget' : Builder.target { r with filter := some [("and", .map filter)] } =
      Builder.target r := rfl
  have hlabel : Builder.selectLabel .query { r with filter := some [("and", .map filter)] } =
      Builder.selectLabel .get r := by
    unfold Builder.selectLabel
    rw [hcount]
    rfl
  have hclause : b.clauseOf .get mapping (Builder.nonEmpty r.filter) =
      b.clauseOf .query mapping (Builder.nonEmpty (some [("and", .map filter)])) := by
    rw [hfilter, Builder.nonEmpty_of_ne_nil hne, Builder.nonEmpty_of_ne_nil (by simp),
      Builder.clauseOf_some, Builder.clauseOf_some, he, hf]
    exact congrArg Except.ok hrender.symm
  rw [Builder.result_select (.inl rfl), Builder.result_select (.inr rfl), htarget', hlabel]
  cases htarget : Builder.target r with
  | error fault => rfl
  | ok target =>
    obtain rfl : mapping = target.1 :=
      Option.some.inj (hmapping.symm.trans (Builder.target_eq_ok_iff.mp htarget).1)
    simp only [Except.bind, hclause]
    rfl

/-- **Equalities and filters agree on what is verbatim**: a where object that compiles to equalities
also compiles as the group `and` of a filter. The two clauses are the same text of the MySQL dialect
exactly when the normal form changes no text of the where object; then they are the same in every
dialect, and `get` and `query` build the same select. What the equalities look for is always what an
insertion of the same record assigns. -/
theorem equalities_agree_iff (mapping : Mapping) (filter : Record) (e : Equalities)
    (hne : filter ≠ []) (h : Equalities.ofRecord filter mapping = .ok e) :
    (Extraction.ofRecord filter mapping).result =
        .ok { assignments := e.params, points := [], polygons := [] } ∧
      ∃ f, (Filter.ofRecord [("and", .map filter)] mapping).result = .ok f ∧
        (f.render .mySql = e.render .mySql ↔ Verbatim mapping filter) ∧
        (Verbatim mapping filter → ∀ d : Dialect, f.render d = e.render d) ∧
        (Verbatim mapping filter → ∀ (d : Dialect) (s : Settings) (r : Request),
          r.mapping = some mapping → r.filter = some filter → r.count = none →
          (Builder.build ⟨d, s⟩ .get r).result =
            (Builder.build ⟨d, s⟩ .query { r with filter := some [("and", .map filter)] }).result) := by
  have hbinds := Equalities.ofRecord_eq_ok_iff.mp h
  have hparams : e.params ≠ [] := by
    rw [← List.length_pos_iff, ← hbinds.length_eq]
    exact List.length_pos_of_ne_nil hne
  have hsame (hverbatim : Verbatim mapping filter) (d : Dialect) :
      (equalFilter filter).render d = e.render d := by
    rw [Equalities.render_eq_equalFilter, (Equalities.eq_params_iff hbinds).mpr hverbatim]
  have hand := ofRecord_and_of_binds hne hbinds
  refine ⟨Extraction.ofRecord_of_binds hbinds, equalFilter filter, hand,
    ⟨fun heq => ?_, fun hverbatim => hsame hverbatim .mySql⟩, hsame, ?_⟩
  case refine_2 =>
    intro hverbatim d s r hmapping hfilter hcount
    exact get_eq_query ⟨d, s⟩ hne h hand (hsame hverbatim d) hmapping hfilter hcount
  rw [Equalities.render_eq_equalFilter, equalFilter_render .mySql hne,
    equalFilter_render .mySql hparams] at heq
  rw [← Equalities.eq_params_iff hbinds]
  have htail : String.intercalate " AND " (filter.map Dialect.mySql.assignment) =
      String.intercalate " AND " (e.params.map Dialect.mySql.assignment) := by
    rw [← String.toList_inj] at heq ⊢
    rw [String.toList_append, String.toList_append] at heq
    exact List.append_cancel_left heq
  exact Equalities.eq_of_intercalate_eq hbinds htail

/-- A name without quotes is looked for in the same way by both. -/
theorem equalities_agree_iff_plain_name :
    let mapping : Mapping := ⟨[("id", .number), ("name", .string)]⟩
    let filter : Record := [("name", .text "Ohara"), ("id", .int 7)]
    let e : Equalities := ⟨[("name", .text "Ohara"), ("id", .int 7)]⟩
    Equalities.ofRecord filter mapping = .ok e ∧
      e.render .mySql = "WHERE \x60name\x60 = 'Ohara' AND \x60id\x60 = 7" ∧
      (Extraction.ofRecord filter mapping).result =
        .ok { assignments := e.params, points := [], polygons := [] } ∧
      ∃ f, (Filter.ofRecord [("and", .map filter)] mapping).result = .ok f ∧
        (f.render .mySql = e.render .mySql ↔ Verbatim mapping filter) ∧
        (Verbatim mapping filter → ∀ d : Dialect, f.render d = e.render d) ∧
        (Verbatim mapping filter → ∀ (d : Dialect) (s : Settings) (r : Request),
          r.mapping = some mapping → r.filter = some filter → r.count = none →
          (Builder.build ⟨d, s⟩ .get r).result =
            (Builder.build ⟨d, s⟩ .query { r with filter := some [("and", .map filter)] }).result) :=
  ⟨rfl, rfl, equalities_agree_iff _ _ _ (by simp) rfl⟩

/-- A name with a quote is looked for in two forms. -/
theorem equalities_disagree_on_quote :
    ¬ ∀ (mapping : Mapping) (filter : Record) (e : Equalities) (d : Dialect), filter ≠ [] →
      Equalities.ofRecord filter mapping = .ok e →
      ∃ f, (Filter.ofRecord [("and", .map filter)] mapping).result = .ok f ∧
        f.render d = e.render d := by
  intro hall
  obtain ⟨f, hf, heq⟩ := hall ⟨[("name", .string)]⟩ [("name", .text "O'Hara")]
    ⟨[("name", .text "O\\'Hara")]⟩ .mySql (by simp) rfl
  have hrender : f.render .mySql = "WHERE \x60name\x60 = 'O\\'Hara'" := by
    rw [← Except.ok.inj hf]
    rfl
  have hbound : (Equalities.mk [("name", .text "O\\'Hara")]).render .mySql =
      "WHERE \x60name\x60 = 'O\\\\\\'Hara'" := rfl
  rw [hrender, hbound] at heq
  exact absurd heq (by decide)

end TypedSql.Where
