import TypedSql.Proofs.Paging
import TypedSql.Proofs.Target

/-!
# Windows of rows

A page is written as a window of rows when neither of its numbers is negative: a minus sign is no part of
a window. The fallback page of an accepted project is never negative, but numbers in a request are
not checked. So under the settings of an accepted project a select limits its rows to a window exactly
when its request does not ask for a negative page (`Builder.limit_is_window_iff`).
-/

namespace TypedSql

/-! ### Signs -/

namespace Decimal

theorem integerText_of_nonneg {n : Int} (h : 0 ≤ n) :
    integerText n = String.ofList (digits n.natAbs) := by
  rw [integerText, if_neg (Int.not_lt.mpr h)]

theorem minus_mem_integerText {n : Int} (h : n < 0) : '-' ∈ (integerText n).toList := by
  rw [integerText, if_pos h, String.toList_ofList]
  exact List.mem_cons_self

theorem minus_not_mem_digits (n : Nat) : '-' ∉ digits n := by
  intro h
  exact absurd (isDigit_of_mem_digits h) (by decide)

end Decimal

namespace Page

open Decimal

/-- The text is a window of rows: a LIMIT part with two numbers, written in digits. -/
def IsWindow (s : String) : Prop :=
  ∃ offset limit : Nat,
    s = " LIMIT " ++ String.ofList (digits offset) ++ ", " ++ String.ofList (digits limit)

/-- No number of the page is negative. -/
def NonNegative (page : Page) : Prop := 0 ≤ page.offset.toInt ∧ 0 ≤ page.limit.toInt

theorem IsWindow.minus_not_mem {s : String} (h : IsWindow s) : '-' ∉ s.toList := by
  obtain ⟨offset, limit, rfl⟩ := h
  have hkeyword : '-' ∉ " LIMIT ".toList := by decide
  have hcomma : '-' ∉ ", ".toList := by decide
  simp [minus_not_mem_digits]

/-- **A page is written as a window exactly when it is not negative.** -/
theorem isWindow_clause_iff {page : Page} : IsWindow page.clause ↔ page.NonNegative := by
  constructor
  · intro h
    have hminus := h.minus_not_mem
    simp only [clause, String.toList_append, List.mem_append, not_or] at hminus
    obtain ⟨⟨⟨-, hoffset⟩, -⟩, hlimit⟩ := hminus
    exact ⟨Int.not_lt.mp fun hneg => hoffset (minus_mem_integerText hneg),
      Int.not_lt.mp fun hneg => hlimit (minus_mem_integerText hneg)⟩
  · rintro ⟨hoffset, hlimit⟩
    refine ⟨page.offset.toInt.natAbs, page.limit.toInt.natAbs, ?_⟩
    rw [clause, integerText_of_nonneg hoffset, integerText_of_nonneg hlimit]

/-! ### Where pages come from -/

/-- A page is read from the request, or it is the fallback page where nothing is read. -/
theorem eq_some_iff_of_ofValue? {s : Settings} {offset : Option Value} {page : Option Page}
    (h : ofValue? s offset = .ok page) (p : Page) :
    page = some p ↔ ∃ v, offset = some v ∧ (ReadAs v p ∨
      (∀ other, ¬ ReadAs v other) ∧ v ≠ .null ∧ s.isLenient = true ∧ s.fallback = some p) := by
  unfold ofValue? at h
  split at h
  · cases h
    simp
  · cases h
    simp [ReadAs]
  · next v hnull =>
    have hnull : v ≠ .null := fun heq => hnull (by rw [heq])
    simp only [Option.some.injEq, exists_eq_left']
    split at h
    · next hlenient =>
      cases h
      rw [lenient?_or_eq_some_iff]
      simp only [ne_eq, hnull, not_false_eq_true, hlenient, true_and]
    · next hstrict =>
      cases hread : strict? v with
      | error fault =>
        rw [hread] at h
        cases h
      | ok q =>
        rw [hread] at h
        cases h
        -- what the strict policy accepts is read, so there is no other page
        have hq : lenient? v = some q := lenient?_of_strict? hread
        rw [← lenient?_eq_some_iff, hq]
        simp [hstrict]

end Page

/-! ### The fallback page -/

/-- The fallback page of an accepted project is not negative. -/
theorem Project.fallback_nonNegative {text : String} {p : Project} {page : Page}
    (h : ofText text = .ok p) (hpage : p.settings.fallback = some page) : page.NonNegative := by
  have hnone := fault?_eq_none_of_ofText h
  unfold fault? at hnone
  split at hnone
  · cases hnone
  · split at hnone
    · cases hnone
    · simp only [hpage, ite_eq_right_iff, reduceCtorEq, imp_false, isNegative, Bool.or_eq_true,
        decide_eq_true_eq, not_or, Int64.lt_iff_toInt_lt, Int.not_lt] at hnone
      exact hnone

/-- A project that is accepted, with a fallback page. -/
theorem Project.exists_ofText_fallback : ∃ p,
    ofText ("[builder]\nlimit_policy = 'lenient'\nfallback_page = \x7boffset = 0, limit = 50\x7d\n" ++
      "[tables.t]\nid = 'number'") = .ok p ∧ p.settings = ⟨.lenient, some ⟨0, 50⟩⟩ := by
  generalize hread : ofText _ = read
  have hsettings : read.toOption.map settings = some ⟨.lenient, some ⟨0, 50⟩⟩ := by
    rw [← hread]
    decide +kernel
  cases read with
  | error fault => cases hsettings
  | ok p => exact ⟨p, rfl, Option.some.inj hsettings⟩

/-! ### Selects -/

namespace Builder

variable {op : Operation} {r : Request}

/-- A select that is built is its text without a page, and the page in its place. -/
theorem exists_page_of_result_eq_ok {b : Builder} (hop : op = .get ∨ op = .query) {sql : String}
    (h : (b.build op r).result = .ok sql) :
    ∃ front back page, Page.ofValue? b.settings r.offset = .ok page ∧
      (b.build op { r with offset := none, count := none }).result = .ok front ∧
      (b.build op { r with offset := none }).result = .ok (front ++ back) ∧
      sql = front ++ page.elim "" Page.clause ++ back := by
  obtain ⟨page, hpage⟩ := page_of_result_eq_ok hop h
  rw [result_of_page hop hpage] at h
  obtain ⟨⟨front, back⟩, haround, rfl⟩ := map_eq_ok_iff.mp h
  exact ⟨front, back, page, hpage, result_without_offset_count hop haround,
    by rw [result_without_offset hop, haround]; rfl, rfl⟩

/-- **A select limits its rows to a window exactly when its request asks for no negative page.** The
settings are those of an accepted project, under either policy. The fallback page is always a window,
and so is any page that is read from the offset, unless a number of it is negative. -/
theorem limit_is_window_iff {config : String} {p : Project} (hproject : Project.ofText config = .ok p)
    (writer : Writer) (hop : op = .get ∨ op = .query) {sql : String}
    (h : ((⟨writer, p.settings⟩ : Builder).build op r).result = .ok sql) :
    let b : Builder := ⟨writer, p.settings⟩
    ∃ front back page,
      (b.build op { r with offset := none, count := none }).result = .ok front ∧
      (b.build op { r with offset := none }).result = .ok (front ++ back) ∧
      sql = front ++ page.elim "" Page.clause ++ back ∧
      (∀ w, page = some w ↔ ∃ offset, r.offset = some offset ∧ (Page.ReadAs offset w ∨
        (∀ other, ¬ Page.ReadAs offset other) ∧ offset ≠ .null ∧ p.settings.isLenient = true ∧
          p.settings.fallback = some w)) ∧
      ((∀ w, page = some w → Page.IsWindow w.clause) ↔
        ∀ offset w, r.offset = some offset → Page.ReadAs offset w → w.NonNegative) := by
  intro b
  obtain ⟨front, back, page, hpage, hfront, hback, hsql⟩ := exists_page_of_result_eq_ok hop h
  have hsource := Page.eq_some_iff_of_ofValue? hpage
  refine ⟨front, back, page, hfront, hback, hsql, hsource, ?_⟩
  simp only [Page.isWindow_clause_iff]
  constructor
  · intro hwindow offset w hoffset hread
    exact hwindow w ((hsource w).mpr ⟨offset, hoffset, .inl hread⟩)
  · intro hrequest w hw
    obtain ⟨offset, hoffset, hread | ⟨-, -, -, hfallback⟩⟩ := (hsource w).mp hw
    · exact hrequest offset w hoffset hread
    · exact Project.fallback_nonNegative hproject hfallback

/-- Nothing is read from a text that is no list, so the fallback page is the window. -/
theorem limit_is_window_iff_fallback :
    let b : Builder := ⟨.mySql, ⟨.lenient, some ⟨0, 50⟩⟩⟩
    let r : Request :=
      { Request.empty with
        mapping := some ⟨[("id", .number)]⟩
        table := some "t"
        offset := some (.text "-5") }
    (b.build .get r).result = .ok "SELECT * FROM t LIMIT 0, 50" ∧
      ∃ front back page,
        (b.build .get { r with offset := none, count := none }).result = .ok front ∧
        "SELECT * FROM t LIMIT 0, 50" = front ++ page.elim "" Page.clause ++ back ∧
        page = some ⟨0, 50⟩ ∧ ∀ w, page = some w → Page.IsWindow w.clause := by
  intro b r
  have hsql : (b.build .get r).result = .ok "SELECT * FROM t LIMIT 0, 50" := rfl
  have hnone (w : Page) : ¬ Page.ReadAs (.text "-5") w := by
    rintro ⟨_, _, hlist, -⟩
    cases hlist
  obtain ⟨⟨settings, tables⟩, hproject, rfl⟩ := Project.exists_ofText_fallback
  obtain ⟨front, back, page, hfront, -, htext, hsource, hwindow⟩ :=
    limit_is_window_iff hproject .mySql (.inl rfl) hsql
  refine ⟨hsql, front, back, page, hfront, htext, ?_, ?_⟩
  · exact (hsource ⟨0, 50⟩).mpr ⟨_, rfl, .inr ⟨hnone, nofun, rfl, rfl⟩⟩
  · refine hwindow.mpr fun offset w hoffset hread => ?_
    cases hoffset
    exact absurd hread (hnone w)

/-- The numbers of a request are not checked: under the settings of an accepted project, and under the
strict policy as well, a negative offset is written into the statement. -/
theorem negative_limit_is_no_window :
    let settings : Settings := ⟨.lenient, some ⟨0, 50⟩⟩
    let r : Request :=
      { Request.empty with
        mapping := some ⟨[("id", .number)]⟩
        table := some "t"
        offset := some (.list [.int (-5), .int 10]) }
    (∃ config p, Project.ofText config = .ok p ∧ p.settings = settings) ∧
      (∀ s ∈ [settings, .strict], ((⟨.mySql, s⟩ : Builder).build .get r).result =
        .ok ("SELECT * FROM t" ++ Page.clause ⟨-5, 10⟩)) ∧
      Page.clause ⟨-5, 10⟩ = " LIMIT -5, 10" ∧ ¬ Page.IsWindow " LIMIT -5, 10" := by
  intro settings r
  have hclause : Page.clause ⟨-5, 10⟩ = " LIMIT -5, 10" := rfl
  refine ⟨⟨_, Project.exists_ofText_fallback⟩, ?_, hclause, ?_⟩
  · exact List.forall_mem_cons.mpr ⟨rfl, List.forall_mem_singleton.mpr rfl⟩
  · rw [← hclause, Page.isWindow_clause_iff]
    exact fun h => absurd h.1 (by decide)

end Builder

end TypedSql
