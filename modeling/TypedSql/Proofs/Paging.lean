import TypedSql.Dialect.MySql
import TypedSql.Proofs.Assembly
import TypedSql.Proofs.Numerals

/-!
# Pages under the two policies

The strict policy reports an offset that is no page; the lenient policy reads what it can, takes the
fallback page where it cannot, and reports nothing. What it reads is said here without the reading
function: a text begins with an integer (`LeadingInteger`), a value coerces to a whole number
(`Page.Coerces`), and an offset is read as a page (`Page.ReadAs`).

The lenient policy extends the strict one (`Builder.lenient_extends_strict`): where the strict policy
succeeds, both build the same statement; where it fails at the offset alone, the lenient one builds the
statement without the offset, and puts the page that it settled for in its place.
-/

namespace TypedSql

/-! ### Leading integers -/

theorem Text.eq_append_trimStart (cs : List Char) :
    ∃ blanks, cs = blanks ++ Text.trimStart cs ∧ ∀ c ∈ blanks, Text.isBlank c = true :=
  ⟨cs.takeWhile Text.isBlank, List.takeWhile_append_dropWhile.symm,
    List.all_eq_true.mp List.all_takeWhile⟩

namespace Decimal

theorem int64?_eq_some_iff {n : Int} {m : Int64} : int64? n = some m ↔ m.toInt = n := by
  constructor
  · exact toInt_of_int64?_eq_some
  · rintro rfl
    have hfits : FitsInt64 m.toInt := ⟨m.minValue_le_toInt, m.toInt_le⟩
    rw [int64?, if_pos hfits, Int64.ofInt_toInt]

/-- The text begins with the integer: blanks, a sign or none, and digits as far as they go. -/
def LeadingInteger (cs : List Char) (n : Int) : Prop :=
  ∃ blanks sign ds rest : List Char, cs = blanks ++ (sign ++ (ds ++ rest)) ∧
    (∀ c ∈ blanks, Text.isBlank c = true) ∧ (sign = [] ∨ sign = ['+'] ∨ sign = ['-']) ∧
    ds ≠ [] ∧ (∀ c ∈ ds, c.isDigit = true) ∧ (∀ c, rest.head? = some c → c.isDigit = false) ∧
    n = if sign = ['-'] then -(ofDigits ds : Int) else ofDigits ds

/-- Trimming stops behind the blanks, because neither a sign nor a digit is blank. -/
theorem trimStart_eq {cs blanks sign ds rest : List Char} (hcs : cs = blanks ++ (sign ++ (ds ++ rest)))
    (hblanks : ∀ c ∈ blanks, Text.isBlank c = true) (hsign : IsSign sign) (hds : IsDigits ds) :
    Text.trimStart cs = sign ++ (ds ++ rest) := by
  obtain ⟨c, tail, rfl⟩ := List.exists_cons_of_ne_nil hds.1
  have hc : c.isDigit = true := hds.2 c List.mem_cons_self
  refine (span_eq_iff.mpr ⟨hcs, hblanks, fun a ha => ?_⟩).2
  rcases hsign with rfl | rfl | rfl
  · cases ha
    exact Text.isBlank_eq_false_of_isDigit hc
  · cases ha
    decide
  · cases ha
    decide

end Decimal

namespace Page

open Decimal

/-- What the digits of a text stand for, once its blanks and its sign are off. -/
theorem leadingInt64?_eq {s : String} {sign afterSign ds rest : List Char}
    (hsign : splitSign (Text.trimStart s.toList) = (sign, afterSign))
    (hdigits : splitDigits afterSign = (ds, rest)) :
    leadingInt64? s =
      if ds = [] then none
      else int64? (if sign = ['-'] then -(ofDigits ds : Int) else ofDigits ds) := by
  simp only [leadingInt64?, hsign, hdigits, List.isEmpty_iff]

/-- A sign and digits are read as the number that they stand for; what follows the digits plays no part. -/
theorem leadingInt64?_of_trimStart {s : String} {sign ds rest : List Char}
    (htrim : Text.trimStart s.toList = sign ++ (ds ++ rest)) (hsign : IsSign sign) (hds : IsDigits ds)
    (hrest : ∀ c, rest.head? = some c → c.isDigit = false) :
    leadingInt64? s = int64? (if sign = ['-'] then -(ofDigits ds : Int) else ofDigits ds) := by
  obtain ⟨c, tail, rfl⟩ := List.exists_cons_of_ne_nil hds.1
  have hsplit : splitSign (Text.trimStart s.toList) = (sign, c :: tail ++ rest) := by
    rw [htrim]
    exact splitSign_append hsign ⟨c, rfl, .inl (hds.2 c List.mem_cons_self)⟩
  rw [leadingInt64?_eq hsplit (splitDigits_eq_iff.mpr ⟨rfl, hds.2, hrest⟩), if_neg hds.1]

theorem leadingInt64?_eq_some_iff {s : String} {n : Int64} :
    leadingInt64? s = some n ↔ LeadingInteger s.toList n.toInt := by
  constructor
  · intro h
    obtain ⟨blanks, hs, hblanks⟩ := Text.eq_append_trimStart s.toList
    rcases hsign : splitSign (Text.trimStart s.toList) with ⟨sign, afterSign⟩
    rcases hdigits : splitDigits afterSign with ⟨ds, rest⟩
    rw [leadingInt64?_eq hsign hdigits] at h
    obtain ⟨htrim, hsigns⟩ := eq_append_of_splitSign hsign
    obtain ⟨rfl, hds, hrest⟩ := splitDigits_eq_iff.mp hdigits
    rw [htrim] at hs
    split at h
    · cases h
    · next hne =>
      exact ⟨blanks, sign, ds, rest, hs, hblanks, hsigns, hne, hds, hrest, int64?_eq_some_iff.mp h⟩
  · rintro ⟨blanks, sign, ds, rest, hs, hblanks, hsigns, hne, hds, hrest, hn⟩
    have htrim := trimStart_eq hs hblanks hsigns ⟨hne, hds⟩
    rw [leadingInt64?_of_trimStart htrim hsigns ⟨hne, hds⟩ hrest, ← hn]
    exact int64?_eq_some_iff.mpr rfl

example : leadingInt64? "\t-7.9 rows" = some (-7) := rfl

/-! ### Pages that are read -/

/-- The value coerces to the number: a whole number is taken as it is, of a finite number the whole part
is, or the nearest number in range, and of a text the integer that it begins with, when it is in range. -/
inductive Coerces : Value → Int64 → Prop where
  | int (n : Int64) : Coerces (.int n) n
  | float {x : Float} {n : Int} (h : (Binary.ofFloat x).truncate? = some n) :
      Coerces (.float x) (saturate n)
  | text {s : String} {n : Int64} (h : LeadingInteger s.toList n.toInt) : Coerces (.text s) n

theorem lenientInt?_eq_some_iff {v : Value} {n : Int64} :
    lenientInt? v = some n ↔ Coerces v n := by
  constructor
  · intro h
    cases v with
    | int m =>
      obtain rfl : m = n := Option.some.inj h
      exact .int m
    | float x =>
      obtain ⟨m, hm, rfl⟩ := Option.map_eq_some_iff.mp h
      exact .float hm
    | text s => exact .text (leadingInt64?_eq_some_iff.mp h)
    | _ => cases h
  · intro h
    cases h with
    | int => rfl
    | float h => exact Option.map_eq_some_iff.mpr ⟨_, h, rfl⟩
    | text h => exact leadingInt64?_eq_some_iff.mpr h

/-- The offset is a list of two values that coerce to the two numbers of the page. -/
def ReadAs (offset : Value) (page : Page) : Prop :=
  ∃ index limit, offset = .list [index, limit] ∧ Coerces index page.offset ∧ Coerces limit page.limit

theorem lenient?_eq_some_iff {v : Value} {page : Page} :
    lenient? v = some page ↔ ReadAs v page := by
  constructor
  · intro h
    unfold lenient? at h
    split at h
    · next index limit =>
      split at h
      · next o l ho hl =>
        cases h
        exact ⟨index, limit, rfl, lenientInt?_eq_some_iff.mp ho, lenientInt?_eq_some_iff.mp hl⟩
      · cases h
    · cases h
  · rintro ⟨index, limit, rfl, hindex, hlimit⟩
    simp only [lenient?, lenientInt?_eq_some_iff.mpr hindex, lenientInt?_eq_some_iff.mpr hlimit]

/-- The page that the lenient policy settles for: the one that it reads, or else the fallback page. -/
theorem lenient?_or_eq_some_iff {v : Value} {fallback : Option Page} {page : Page} :
    (lenient? v).or fallback = some page ↔
      ReadAs v page ∨ (∀ other, ¬ ReadAs v other) ∧ fallback = some page := by
  rw [Option.or_eq_some_iff, lenient?_eq_some_iff, Option.eq_none_iff_forall_ne_some]
  simp only [ne_eq, lenient?_eq_some_iff]

/-! ### The two policies -/

theorem lenientInt?_of_strictInt? {v : Value} {n : Int64} (h : strictInt? v = some n) :
    lenientInt? v = some n := by
  cases v with
  | text s => cases h
  | _ => exact h

/-- Whatever the strict policy accepts, the lenient one reads in the same way. -/
theorem lenient?_of_strict? {v : Value} {page : Page} (h : strict? v = .ok page) :
    lenient? v = some page := by
  unfold strict? at h
  split at h
  · next index limit =>
    split at h
    · next o l ho hl =>
      cases h
      simp only [lenient?, lenientInt?_of_strictInt? ho, lenientInt?_of_strictInt? hl]
    · cases h
    · cases h
  · cases h
  · cases h

theorem ofValue?_lenient (fallback : Option Page) (offset : Option Value) :
    ∃ page, ofValue? ⟨.lenient, fallback⟩ offset = .ok page := by
  unfold ofValue?
  split
  · exact ⟨_, rfl⟩
  · exact ⟨_, rfl⟩
  · exact ⟨_, rfl⟩

/-- The lenient policy keeps the page of the strict one. -/
theorem ofValue?_lenient_of_strict {ignored fallback : Option Page} {offset : Option Value}
    {page : Option Page} (h : ofValue? ⟨.strict, ignored⟩ offset = .ok page) :
    ofValue? ⟨.lenient, fallback⟩ offset = .ok page := by
  unfold ofValue? at h ⊢
  split at h
  · exact h
  · exact h
  · next v _ =>
    simp only [Settings.isLenient, beq_iff_eq, reduceCtorEq, if_false] at h
    cases hstrict : strict? v with
    | error fault =>
      rw [hstrict] at h
      cases h
    | ok p =>
      rw [hstrict] at h
      cases h
      simp [Settings.isLenient, lenient?_of_strict? hstrict]

/-- Where the strict policy fails, the lenient one settles for what it reads, or for the fallback page. -/
theorem ofValue?_lenient_of_strict_error {ignored : Option Page} {offset : Option Value}
    {fault : BuildError} (h : ofValue? ⟨.strict, ignored⟩ offset = .error fault)
    (fallback : Option Page) :
    ∃ v, offset = some v ∧ ofValue? ⟨.lenient, fallback⟩ offset = .ok ((lenient? v).or fallback) := by
  unfold ofValue? at h ⊢
  split at h
  · cases h
  · cases h
  · exact ⟨_, rfl, rfl⟩

end Page

namespace Builder

/-! ### A select around its page -/

/-- A select but for its page: the text in front of it, and the text behind it. -/
def aroundPage (b : Builder) (op : Operation) (r : Request) : Except BuildError (String × String) :=
  (target r).bind fun (mapping, table) =>
    (Order.ofValue? r.order).bind fun order =>
      (selectLabel op r).bind fun label =>
        (b.clauseOf op mapping (nonEmpty r.filter)).map fun clause =>
          (b.selectText r mapping table clause order none,
            label.elim "" fun label => ";" ++ b.countText label table clause)

variable {b : Builder} {op : Operation} {r : Request}

theorem queryText_eq_append (mapping : Mapping) (table clause : String) (order : Option Order)
    (page : Option Page) (label : Option String) :
    b.queryText r mapping table clause order page label =
      b.selectText r mapping table clause order none ++ page.elim "" Page.clause ++
        label.elim "" fun label => ";" ++ b.countText label table clause := by
  unfold queryText selectText
  cases label <;> cases page <;> simp [String.append_assoc]

/-- A select that finds its page puts it in its place; nothing else depends on settings and offset. -/
theorem result_of_page (hop : op = .get ∨ op = .query) {page : Option Page}
    (hpage : Page.ofValue? b.settings r.offset = .ok page) :
    (b.build op r).result =
      (b.aroundPage op r).map fun (front, back) => front ++ page.elim "" Page.clause ++ back := by
  rw [result_select hop, hpage]
  simp only [aroundPage, queryText_eq_append]
  cases target r with
  | error fault => rfl
  | ok found =>
    cases Order.ofValue? r.order with
    | error fault => rfl
    | ok order =>
      simp only [Except.bind]
      cases selectLabel op r with
      | error fault => rfl
      | ok label => cases b.clauseOf op found.1 (nonEmpty r.filter) <;> rfl

theorem page_of_result_eq_ok (hop : op = .get ∨ op = .query) {sql : String}
    (h : (b.build op r).result = .ok sql) :
    ∃ page, Page.ofValue? b.settings r.offset = .ok page := by
  rw [result_select hop] at h
  obtain ⟨found, -, h⟩ := bind_eq_ok_iff.mp h
  obtain ⟨order, -, h⟩ := bind_eq_ok_iff.mp h
  obtain ⟨page, hpage, -⟩ := bind_eq_ok_iff.mp h
  exact ⟨page, hpage⟩

theorem result_without_offset (hop : op = .get ∨ op = .query) :
    (b.build op { r with offset := none }).result =
      (b.aroundPage op r).map fun (front, back) => front ++ back := by
  have hpage : Page.ofValue? b.settings { r with offset := none }.offset = .ok none := rfl
  have haround : b.aroundPage op { r with offset := none } = b.aroundPage op r := rfl
  rw [result_of_page hop hpage, haround]
  simp only [Option.elim_none, String.append_empty]

/-- Without its page and its alias, a select is the text in front of the page. -/
theorem result_without_offset_count (hop : op = .get ∨ op = .query) {front back : String}
    (h : b.aroundPage op r = .ok (front, back)) :
    (b.build op { r with offset := none, count := none }).result = .ok front := by
  have hfront : b.aroundPage op { r with count := none } = .ok (front, "") := by
    simp only [aroundPage, bind_eq_ok_iff, map_eq_ok_iff, Prod.mk.injEq] at h ⊢
    obtain ⟨found, hfound, order, horder, label, -, clause, hclause, hfront, -⟩ := h
    refine ⟨found, hfound, order, horder, none, ?_, clause, hclause, hfront, rfl⟩
    unfold selectLabel
    split <;> rfl
  rw [result_without_offset (r := { r with count := none }) hop, hfront]
  simp only [Except.map, String.append_empty]

/-- **The lenient policy extends the strict one**: a select that is built under the strict policy is the
same under the lenient one, whatever the fallback page. Under the lenient policy a select fails exactly
when it fails without its offset, and in the same way. Where the strict policy fails at the offset alone,
the lenient one builds the statement without the offset, with a page behind the select when the offset is
a list of two values that coerce to its numbers, or when there is no such page but a fallback page. -/
theorem lenient_extends_strict (w : Writer) (ignored fallback : Option Page) (op : Operation)
    (hop : op = .get ∨ op = .query) (r : Request) :
    let strict : Builder := ⟨w, ⟨.strict, ignored⟩⟩
    let lenient : Builder := ⟨w, ⟨.lenient, fallback⟩⟩
    (∀ sql, (strict.build op r).result = .ok sql → (lenient.build op r).result = .ok sql) ∧
      (∀ fault, (lenient.build op r).result = .error fault ↔
        (lenient.build op { r with offset := none }).result = .error fault) ∧
      ∀ fault whole, (strict.build op r).result = .error fault →
        (strict.build op { r with offset := none }).result = .ok whole →
        ∃ offset front back page, r.offset = some offset ∧ whole = front ++ back ∧
          (strict.build op { r with offset := none, count := none }).result = .ok front ∧
          (lenient.build op r).result = .ok (front ++ page.elim "" Page.clause ++ back) ∧
          ∀ p, page = some p ↔
            Page.ReadAs offset p ∨ (∀ other, ¬ Page.ReadAs offset other) ∧ fallback = some p := by
  intro strict lenient
  have hpart : lenient.aroundPage op r = strict.aroundPage op r := rfl
  refine ⟨fun sql hsql => ?_, fun fault => ?_, fun fault whole hfault hwhole => ?_⟩
  case refine_1 =>
    obtain ⟨page, hpage⟩ := page_of_result_eq_ok hop hsql
    rw [result_of_page hop hpage] at hsql
    rw [result_of_page hop (Page.ofValue?_lenient_of_strict hpage), hpart, hsql]
  case refine_2 =>
    obtain ⟨page, hpage⟩ := Page.ofValue?_lenient fallback r.offset
    rw [result_of_page hop hpage, result_without_offset hop]
    cases lenient.aroundPage op r <;> simp [Except.map]
  case refine_3 =>
    rw [result_without_offset hop] at hwhole
    obtain ⟨⟨front, back⟩, haround, rfl⟩ := map_eq_ok_iff.mp hwhole
    -- the fault is the offset's, because all around the page is there
    cases hpage : Page.ofValue? strict.settings r.offset with
    | ok page =>
      rw [result_of_page hop hpage, haround] at hfault
      cases hfault
    | error _ =>
      obtain ⟨offset, hoffset, hlenient⟩ := Page.ofValue?_lenient_of_strict_error hpage fallback
      refine ⟨offset, front, back, _, hoffset, rfl, result_without_offset_count hop haround, ?_,
        fun p => Page.lenient?_or_eq_some_iff⟩
      rw [result_of_page hop hlenient, hpart, haround]
      rfl

/-- Texts are no page for the strict policy, but the lenient one reads how they begin. -/
theorem lenient_extends_strict_text_offset :
    let strict : Builder := ⟨.mySql, .strict⟩
    let lenient : Builder := ⟨.mySql, ⟨.lenient, some ⟨0, 50⟩⟩⟩
    let r : Request :=
      { Request.empty with
        mapping := some ⟨[("id", .number)]⟩
        table := some "users"
        offset := some (.list [.text " +20", .text "10px"])
        count := some (.text "n") }
    (strict.build .query r).result = .error (.invalidShape .offsetNotNumber) ∧
      (lenient.build .query r).result =
        .ok "SELECT * FROM users LIMIT 20, 10;SELECT COUNT(*) AS \x60n\x60 FROM users" ∧
      ∃ offset front back page, r.offset = some offset ∧
        "SELECT * FROM users;SELECT COUNT(*) AS \x60n\x60 FROM users" = front ++ back ∧
        (strict.build .query { r with offset := none, count := none }).result = .ok front ∧
        (lenient.build .query r).result = .ok (front ++ page.elim "" Page.clause ++ back) ∧
        ∀ p, page = some p ↔ Page.ReadAs offset p ∨
          (∀ other, ¬ Page.ReadAs offset other) ∧ some ⟨0, 50⟩ = some p := by
  intro strict lenient r
  have hstrict : (strict.build .query r).result = .error (.invalidShape .offsetNotNumber) := rfl
  have hwhole : (strict.build .query { r with offset := none }).result =
      .ok "SELECT * FROM users;SELECT COUNT(*) AS \x60n\x60 FROM users" := by
    dsimp only [strict, r]
    rfl
  have hlenient : (lenient.build .query r).result =
      .ok "SELECT * FROM users LIMIT 20, 10;SELECT COUNT(*) AS \x60n\x60 FROM users" := by
    dsimp only [lenient, r]
    rfl
  exact ⟨hstrict, hlenient, (lenient_extends_strict .mySql none (some ⟨0, 50⟩) .query (.inr rfl) r).2.2
    _ _ hstrict hwhole⟩

end Builder

end TypedSql
