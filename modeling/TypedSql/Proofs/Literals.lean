import TypedSql.Proofs.Scan
import TypedSql.Proofs.TextForms
import TypedSql.TableName

/-!
# What the MySQL dialect writes is a fragment

Numbers consist of inert characters, perhaps behind a minus sign. A quoted text and a quoted name keep
the scanner inside their quotes, whatever characters they are about: an escaped character is passed
over behind its backslash, and a doubled back-tick leaves a name and comes back to it. So the literal of
every value and the quoted form of every name is a fragment (`MySql.fragment_literal`,
`MySql.fragment_identifier`). A table name is written as it is, and is one because it was checked
(`TableName.fragment_of_fault?_eq_none`).
-/

namespace TypedSql

open Scan

/-! ### Numbers -/

namespace Decimal

theorem inert_of_mem_digits {c : Char} {n : Nat} (h : c ∈ digits n) : Inert c := by
  have hdigit := isDigit_of_mem_digits h
  exact inert_of_isAlphanum (by simp [Char.isAlphanum, hdigit])

theorem digits_ne_nil (n : Nat) : digits n ≠ [] :=
  Nat.toDigits_ne_nil

/-- A numeral of inert characters is a fragment with a minus sign or without. -/
theorem fragment_signed {cs : List Char} (h : ∀ c ∈ cs, Inert c) (hne : cs ≠ []) (negative : Prop)
    [Decidable negative] : Fragment (String.ofList (if negative then '-' :: cs else cs)) := by
  have hchars : ∀ c ∈ (String.ofList cs).toList, Inert c := by rwa [String.toList_ofList]
  split
  · have hsplit : String.ofList ('-' :: cs) = "-" ++ String.ofList cs := by
      rw [← String.toList_inj]
      simp
    rw [hsplit]
    refine fragment_minus hchars fun hempty => hne ?_
    rw [← String.toList_ofList (l := cs), hempty]
    rfl
  · exact fragment_of_inert hchars

theorem fragment_integerText (n : Int) : Fragment (integerText n) :=
  fragment_signed (fun _ => inert_of_mem_digits) (digits_ne_nil _) (n < 0)

theorem mem_positional {ds : List Char} {e : Int} {c : Char} (h : c ∈ positional ds e) :
    c ∈ ds ∨ c = '0' ∨ c = '.' := by
  unfold positional at h
  split at h
  · rcases List.mem_append.mp h with h | h
    · exact .inl h
    · exact .inr (.inl (List.eq_of_mem_replicate h))
  · dsimp only at h
    split at h
    · rcases List.mem_append.mp h with h | h
      · exact .inl (List.mem_of_mem_take h)
      · rcases List.mem_cons.mp h with h | h
        · exact .inr (.inr h)
        · exact .inl (List.mem_of_mem_drop h)
    · simp only [List.cons_append, List.nil_append, List.mem_cons, List.mem_append,
        List.mem_replicate] at h
      rcases h with h | h | h | h
      · exact .inr (.inl h)
      · exact .inr (.inr h)
      · exact .inr (.inl h.2)
      · exact .inl h

theorem positional_ne_nil {ds : List Char} (h : ds ≠ []) (e : Int) : positional ds e ≠ [] := by
  unfold positional
  split
  · simp [h]
  · dsimp only
    split <;> simp

theorem mem_magnitudeText {m : Nat} {q : Int} {c : Char} (h : c ∈ magnitudeText m q) :
    c.isDigit = true ∨ c = '.' := by
  unfold magnitudeText at h
  split at h
  · rw [List.mem_singleton.mp h]
    exact .inl rfl
  · rcases mem_positional h with h | rfl | rfl
    · exact .inl (isDigit_of_mem_digits h)
    · exact .inl rfl
    · exact .inr rfl

theorem inert_of_mem_magnitudeText {m : Nat} {q : Int} {c : Char} (h : c ∈ magnitudeText m q) :
    Inert c := by
  rcases mem_magnitudeText h with h | rfl
  · exact inert_of_isAlphanum (by simp [Char.isAlphanum, h])
  · decide

theorem magnitudeText_ne_nil (m : Nat) (q : Int) : magnitudeText m q ≠ [] := by
  unfold magnitudeText
  split
  · simp
  · exact positional_ne_nil (digits_ne_nil _) _

theorem fragment_floatText (x : Float) : Fragment (floatText x) := by
  unfold floatText
  cases Binary.ofFloat x with
  | nan => decide
  | infinite negative => cases negative <;> decide
  | finite negative m q =>
    exact fragment_signed (fun _ => inert_of_mem_magnitudeText) (magnitudeText_ne_nil m q)
      (negative = true)

/-- A numeral is not empty. -/
theorem signed_ne_empty {cs : List Char} (h : cs ≠ []) (negative : Prop) [Decidable negative] :
    String.ofList (if negative then '-' :: cs else cs) ≠ "" := by
  intro hempty
  have hnil : (if negative then '-' :: cs else cs) = [] := by
    rw [← String.toList_ofList (l := if negative then '-' :: cs else cs), hempty]
    rfl
  split at hnil
  · cases hnil
  · exact h hnil

theorem integerText_ne_empty (n : Int) : integerText n ≠ "" :=
  signed_ne_empty (digits_ne_nil _) (n < 0)

theorem floatText_ne_empty (x : Float) : floatText x ≠ "" := by
  unfold floatText
  cases Binary.ofFloat x with
  | nan => decide
  | infinite negative => cases negative <;> decide
  | finite negative m q => exact signed_ne_empty (magnitudeText_ne_nil m q) (negative = true)

/-- The text of a number consists of digits, a minus sign, a point and the letters of `NaN` and `inf`. -/
theorem mem_floatText {x : Float} {c : Char} (h : c ∈ (floatText x).toList) :
    c.isDigit = true ∨ c ∈ ['-', '.', 'N', 'a', 'i', 'n', 'f'] := by
  unfold floatText at h
  cases hx : Binary.ofFloat x with
  | nan =>
    rw [hx] at h
    have hnan : ∀ d ∈ Binary.nan.text.toList, d ∈ ['-', '.', 'N', 'a', 'i', 'n', 'f'] :=
      List.all_iff_forall_prop.mp (by decide)
    exact .inr (hnan c h)
  | infinite negative =>
    rw [hx] at h
    have hinfinite : ∀ d ∈ (Binary.infinite negative).text.toList,
        d ∈ ['-', '.', 'N', 'a', 'i', 'n', 'f'] := by
      cases negative <;> exact List.all_iff_forall_prop.mp (by decide)
    exact .inr (hinfinite c h)
  | finite negative m q =>
    have hmagnitude (hc : c ∈ magnitudeText m q) :
        c.isDigit = true ∨ c ∈ ['-', '.', 'N', 'a', 'i', 'n', 'f'] := by
      rcases mem_magnitudeText hc with hdigit | rfl
      · exact .inl hdigit
      · exact .inr (by decide)
    rw [hx, Binary.text, String.toList_ofList] at h
    split at h
    · rcases List.mem_cons.mp h with rfl | h
      · exact .inr (by decide)
      · exact hmagnitude h
    · exact hmagnitude h

theorem mem_integerText {n : Int} {c : Char} (h : c ∈ (integerText n).toList) :
    c.isDigit = true ∨ c = '-' := by
  rw [integerText, String.toList_ofList] at h
  split at h
  · rcases List.mem_cons.mp h with rfl | h
    · exact .inr rfl
    · exact .inl (isDigit_of_mem_digits h)
  · exact .inl (isDigit_of_mem_digits h)

end Decimal

/-! ### Dates and times -/

namespace DateTime

open Decimal

theorem isDigit_of_mem_padded {c : Char} {width n : Nat} (h : c ∈ padded width n) :
    c.isDigit = true := by
  rcases List.mem_append.mp h with h | h
  · rw [List.eq_of_mem_replicate h]
    rfl
  · exact isDigit_of_mem_digits h

theorem mem_yearText {c : Char} {year : Int} (h : c ∈ yearText year) :
    c.isDigit = true ∨ c ∈ ['-', '+'] := by
  unfold yearText at h
  split at h
  · rcases List.mem_cons.mp h with rfl | h
    · exact .inr (by decide)
    · exact .inl (isDigit_of_mem_padded h)
  · split at h
    · rcases List.mem_cons.mp h with rfl | h
      · exact .inr (by decide)
      · exact .inl (isDigit_of_mem_padded h)
    · exact .inl (isDigit_of_mem_padded h)

/-- A date and time consists of digits and separators. -/
theorem mem_text {c : Char} {t : DateTime} (h : c ∈ t.text.toList) :
    c.isDigit = true ∨ c ∈ ['-', '+', ' ', ':', '.'] := by
  unfold text at h
  simp only [String.toList_ofList, List.mem_append, List.mem_cons] at h
  have hpadded (width n : Nat) (hc : c ∈ padded width n) := isDigit_of_mem_padded hc
  rcases h with (((((h | h | h) | h | h) | h | h) | h | h) | h | h) | h | h
  · rcases mem_yearText h with h | h
    · exact .inl h
    · exact .inr (by simp only [List.mem_cons] at h ⊢; tauto)
  all_goals first
    | exact .inl (hpadded _ _ h)
    | exact .inr (by simp [h])

end DateTime

namespace MySql

/-! ### Texts and names -/

/-- An escaped text does not leave its quotes. -/
theorem scan_escapeChars (cs : List Char) :
    finish .quoted (escapeChars cs) = .quoted ∧ plainChars .quoted (escapeChars cs) = [] := by
  induction cs with
  | nil => exact ⟨rfl, rfl⟩
  | cons c cs ih =>
    have hc : finish .quoted (escapeChar c) = .quoted ∧ plainChars .quoted (escapeChar c) = [] := by
      rcases escapeChar_cases c with ⟨d, hd, -⟩ | ⟨hsame, hquote, hbackslash⟩
      · rw [hd]
        exact ⟨rfl, rfl⟩
      · rw [hsame]
        exact scan_of_quotable fun d hd => by
          rw [List.mem_singleton.mp hd]
          exact ⟨hquote, hbackslash⟩
    rw [escapeChars, List.flatMap_cons, finish_append, plainChars_append, hc.1, hc.2]
    exact ih

theorem fragment_textLiteral (s : String) : Fragment (textLiteral s) :=
  fragment_quoted (scan_escapeChars s.toList).1 (scan_escapeChars s.toList).2

/-- The characters of a name come back into the quotes, and only back-ticks and dots stand outside. -/
theorem scan_quoteChars (cs : List Char) :
    finish .named (cs.flatMap quoteChar) = .named ∧
      ∀ c ∈ plainChars .named (cs.flatMap quoteChar), c = '\x60' ∨ c = '.' := by
  induction cs with
  | nil => simp
  | cons c cs ih =>
    have hc : finish .named (quoteChar c) = .named ∧
        ∀ d ∈ plainChars .named (quoteChar c), d = '\x60' ∨ d = '.' := by
      unfold quoteChar
      split
      · exact ⟨rfl, List.all_iff_forall_prop.mp (by decide)⟩
      · exact ⟨rfl, List.all_iff_forall_prop.mp (by decide)⟩
      · next htick _ =>
        have hnext : Mode.named.next c = .named := if_neg htick
        simp [plainChars, hnext]
    rw [List.flatMap_cons, finish_append, plainChars_append, hc.1, List.forall_mem_append]
    exact ⟨ih.1, hc.2, ih.2⟩

/-- Of a quoted name only back-ticks and dots stand outside quotes. -/
theorem scan_identifier (name : String) :
    finish .plain (identifier name).toList = .plain ∧
      ∀ c ∈ plainChars .plain (identifier name).toList, c = '\x60' ∨ c = '.' := by
  obtain ⟨hfinish, hplain⟩ := scan_quoteChars name.toList
  unfold identifier
  rw [String.toList_ofList]
  constructor
  · rw [finish_cons, finish_append]
    change finish (finish .named _) ['\x60'] = .plain
    rw [hfinish]
    rfl
  · intro c hc
    rw [plainChars, if_pos rfl, plainChars_append] at hc
    change c ∈ '\x60' :: (plainChars .named _ ++ plainChars (finish .named _) ['\x60']) at hc
    rw [hfinish] at hc
    -- the closing back-tick is met inside the name
    have hend : plainChars .named ['\x60'] = [] := rfl
    rw [hend, List.append_nil, List.mem_cons] at hc
    rcases hc with rfl | hc
    · exact .inl rfl
    · exact hplain c hc

theorem fragment_identifier (name : String) : Fragment (identifier name) := by
  obtain ⟨hfinish, hplain⟩ := scan_identifier name
  refine fragment_of_harmless hfinish fun c hc => ?_
  rcases hplain c hc with rfl | rfl <;> decide

/-! ### Values -/

theorem quotable_of_mem_text {t : DateTime} {c : Char} (hc : c ∈ t.text.toList) : Quotable c := by
  rcases DateTime.mem_text hc with h | h
  · exact quotable_of_isAlphanum (by simp [Char.isAlphanum, h])
  · have hseparators : ∀ d ∈ ['-', '+', ' ', ':', '.'], Quotable d :=
      List.all_iff_forall_prop.mp (by decide)
    exact hseparators c h

theorem fragment_datetime (t : DateTime) : Fragment ("'" ++ t.text ++ "'") :=
  fragment_of_quotable fun _ => quotable_of_mem_text

mutual

/-- **The literal of every value is a fragment.** -/
theorem fragment_literal (v : Value) : Fragment (literal v) := by
  cases v with
  | null => rw [literal]; decide
  | bool b => cases b <;> (rw [literal]; decide)
  | int n => rw [literal]; exact Decimal.fragment_integerText _
  | float x =>
    rw [literal]
    split
    · exact Decimal.fragment_floatText x
    · decide
  | text s => rw [literal]; exact fragment_textLiteral s
  | datetime t => rw [literal]; exact fragment_datetime t
  | list items => rw [literal]; exact .intercalate (by decide) (fragment_itemLiterals items)
  | map fields => rw [literal]; exact .intercalate (by decide) (fragment_fieldLiterals fields)

theorem fragment_itemLiterals (items : List Value) : ∀ s ∈ itemLiterals items, Fragment s := by
  cases items with
  | nil => simp [itemLiterals]
  | cons v rest =>
    have hrest := fragment_itemLiterals rest
    cases v with
    | list inner =>
      have hopen : Fragment "(" := by decide
      have hinner : Fragment (String.intercalate ", " (itemLiterals inner)) :=
        .intercalate (by decide) (fragment_itemLiterals inner)
      rw [itemLiterals, List.forall_mem_cons]
      exact ⟨(hopen.append hinner).append (by decide), hrest⟩
    | _ =>
      simp only [itemLiterals, List.forall_mem_cons]
      exact ⟨fragment_literal _, hrest⟩

theorem fragment_fieldLiterals (fields : List (String × Value)) :
    ∀ s ∈ fieldLiterals fields, Fragment s := by
  cases fields with
  | nil => simp [fieldLiterals]
  | cons field rest =>
    obtain ⟨name, v⟩ := field
    rw [fieldLiterals, List.forall_mem_cons]
    exact ⟨((fragment_identifier name).append (by decide)).append (fragment_literal v),
      fragment_fieldLiterals rest⟩

end

theorem fragment_assignment (pair : String × Value) : Fragment (Dialect.mySql.assignment pair) :=
  ((fragment_identifier pair.1).append (by decide)).append (fragment_literal pair.2)

theorem fragment_assignments (pairs : List (String × Value)) :
    Fragment (Dialect.mySql.assignments pairs) :=
  .intercalate_map (by decide) fragment_assignment pairs

end MySql

/-! ### Table names -/

namespace TableName

/-- The characters of a text are dots and the characters of its segments. -/
theorem mem_segments {cs : List Char} {c : Char} (h : c ∈ cs) :
    c = '.' ∨ ∃ segment ∈ segments cs, c ∈ segment := by
  induction cs with
  | nil => cases h
  | cons d cs ih =>
    have hrest (hc : c ∈ cs) : c = '.' ∨ ∃ segment ∈ segments (d :: cs), c ∈ segment := by
      rcases ih hc with rfl | ⟨segment, hmem, hsegment⟩
      · exact .inl rfl
      · right
        rw [segments]
        split
        · exact ⟨segment, List.mem_cons_of_mem _ hmem, hsegment⟩
        · split
          · next hnil =>
            rw [hnil] at hmem
            cases hmem
          · next first others hcons =>
            rw [hcons] at hmem
            rcases List.mem_cons.mp hmem with rfl | hmem
            · exact ⟨d :: segment, by simp, List.mem_cons_of_mem d hsegment⟩
            · exact ⟨segment, List.mem_cons_of_mem _ hmem, hsegment⟩
    rcases List.mem_cons.mp h with rfl | hc
    · by_cases hdot : c = '.'
      · exact .inl hdot
      · right
        rw [segments, if_neg hdot]
        split
        · exact ⟨[c], by simp, by simp⟩
        · next first others _ => exact ⟨c :: first, by simp, by simp⟩
    · exact hrest hc

theorem isPart_of_isStart {c : Char} (h : isStart c = true) : isPart c = true := by
  unfold isStart at h
  unfold isPart Char.isAlphanum
  rcases Bool.or_eq_true_iff.mp h with h | h <;> simp [h]

theorem isPart_of_segmentFault?_eq_none {name : String} {segment : List Char} {c : Char}
    (h : segmentFault? name segment = none) (hc : c ∈ segment) : isPart c = true := by
  cases segment with
  | nil => cases hc
  | cons first rest =>
    rw [segmentFault?] at h
    split at h
    · cases h
    · next hstart =>
      rcases List.mem_cons.mp hc with rfl | hc
      · exact isPart_of_isStart (by simpa using hstart)
      · simpa using List.find?_eq_none.mp (Option.map_eq_none_iff.mp h) c hc

theorem inert_of_isPart {c : Char} (h : isPart c = true) : Inert c := by
  unfold isPart at h
  rcases Bool.or_eq_true_iff.mp h with h | h
  · rcases Bool.or_eq_true_iff.mp h with h | h
    all_goals
      rw [beq_iff_eq.mp h]
      decide
  · exact inert_of_isAlphanum h

/-- **A table name without a fault is a fragment.** -/
theorem fragment_of_fault?_eq_none {name : String} (h : fault? name = none) : Fragment name := by
  unfold fault? at h
  split at h
  · cases h
  · refine fragment_of_inert fun c hc => ?_
    rcases mem_segments hc with rfl | ⟨segment, hmem, hsegment⟩
    · decide
    · have hfault := List.findSome?_eq_none_iff.mp h segment hmem
      exact inert_of_isPart (isPart_of_segmentFault?_eq_none hfault hsegment)

end TableName

end TypedSql
