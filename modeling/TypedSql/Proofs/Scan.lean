import Mathlib.Data.Bool.AllAny
import Mathlib.Data.List.Chain

/-!
# Scanning SQL text

A text of SQL is scanned from the left. The scanner is outside quotes, inside a quoted text, right
behind a backslash in one, or inside a quoted name; the characters that it meets outside quotes are
those that a server reads as syntax, the opening quotes included (`plainChars`).

`Single` says that a text begins and ends outside quotes and that its syntax has no semicolon, no
comment and no double quote: the text is one statement or a part of one. This is not preserved when
texts are put together, because two of them can make a comment at the seam. `Fragment` is the
stronger property that is: a fragment does not end with a character that could begin a comment.
-/

namespace TypedSql.Scan

/-! ### The scanner -/

/-- Where the scanner is. -/
inductive Mode where
  /-- Outside quotes. -/
  | plain
  /-- Inside a quoted text. -/
  | quoted
  /-- Inside a quoted text, right behind a backslash. -/
  | escaped
  /-- Inside a quoted name. -/
  | named
deriving DecidableEq, Repr

/-- The mode behind a character. -/
def Mode.next : Mode → Char → Mode
  | .plain, c => if c = '\'' then .quoted else if c = '\x60' then .named else .plain
  | .quoted, c => if c = '\\' then .escaped else if c = '\'' then .plain else .quoted
  | .escaped, _ => .quoted
  | .named, c => if c = '\x60' then .plain else .named

/-- The mode at the end of a text. -/
def finish (m : Mode) (cs : List Char) : Mode := cs.foldl Mode.next m

/-- The characters of a text that the scanner meets outside quotes. -/
def plainChars : Mode → List Char → List Char
  | _, [] => []
  | m, c :: cs => if m = .plain then c :: plainChars (m.next c) cs else plainChars (m.next c) cs

@[simp] theorem finish_nil (m : Mode) : finish m [] = m := rfl

@[simp] theorem finish_cons (m : Mode) (c : Char) (cs : List Char) :
    finish m (c :: cs) = finish (m.next c) cs := rfl

theorem finish_append (m : Mode) (cs ds : List Char) :
    finish m (cs ++ ds) = finish (finish m cs) ds :=
  List.foldl_append

@[simp] theorem plainChars_nil (m : Mode) : plainChars m [] = [] := by
  cases m <;> rfl

theorem plainChars_append (m : Mode) (cs ds : List Char) :
    plainChars m (cs ++ ds) = plainChars m cs ++ plainChars (finish m cs) ds := by
  induction cs generalizing m with
  | nil => simp
  | cons c cs ih =>
    simp only [List.cons_append, plainChars, finish_cons, ih]
    split <;> rfl

/-! ### Single statements -/

/-- The two characters begin a comment. -/
def OpensComment (a b : Char) : Prop := (a = '-' ∧ b = '-') ∨ (a = '/' ∧ b = '*')

instance (a b : Char) : Decidable (OpensComment a b) := by
  unfold OpensComment; infer_instance

/-- The text begins and ends outside quotes, and outside quotes it has no number sign, no double
quote and no beginning of a comment. -/
structure Contained (s : String) : Prop where
  finish_eq : finish .plain s.toList = .plain
  noHash : '#' ∉ plainChars .plain s.toList
  noDoubleQuote : '"' ∉ plainChars .plain s.toList
  noComment : (plainChars .plain s.toList).IsChain fun a b => ¬ OpensComment a b

/-- The text is contained, and has no semicolon outside quotes. -/
structure Single (s : String) : Prop extends Contained s where
  noSemicolon : ';' ∉ plainChars .plain s.toList

instance (s : String) : Decidable (Contained s) :=
  decidable_of_iff
    (finish .plain s.toList = .plain ∧ '#' ∉ plainChars .plain s.toList ∧
      '"' ∉ plainChars .plain s.toList ∧
      (plainChars .plain s.toList).IsChain fun a b => ¬ OpensComment a b)
    ⟨fun ⟨h₁, h₂, h₃, h₄⟩ => ⟨h₁, h₂, h₃, h₄⟩, fun ⟨h₁, h₂, h₃, h₄⟩ => ⟨h₁, h₂, h₃, h₄⟩⟩

instance (s : String) : Decidable (Single s) :=
  decidable_of_iff (Contained s ∧ ';' ∉ plainChars .plain s.toList)
    ⟨fun ⟨h₁, h₂⟩ => ⟨h₁, h₂⟩, fun ⟨h₁, h₂⟩ => ⟨h₁, h₂⟩⟩

/-! ### Fragments -/

/-- A single text that does not end with a character that could begin a comment. -/
structure Fragment (s : String) : Prop extends Single s where
  noOpenEnd : (plainChars .plain s.toList).getLast? ∉ [some '-', some '/']

instance (s : String) : Decidable (Fragment s) :=
  decidable_of_iff (Single s ∧ (plainChars .plain s.toList).getLast? ∉ [some '-', some '/'])
    ⟨fun ⟨h₁, h₂⟩ => ⟨h₁, h₂⟩, fun ⟨h₁, h₂⟩ => ⟨h₁, h₂⟩⟩

/-- What is scanned from the end of a text that ends outside quotes is scanned as from the start. -/
theorem plainChars_toList_append {s : String} (h : finish .plain s.toList = .plain) (t : String) :
    plainChars .plain (s ++ t).toList = plainChars .plain s.toList ++ plainChars .plain t.toList := by
  rw [String.toList_append, plainChars_append, h]

theorem finish_toList_append {s : String} (h : finish .plain s.toList = .plain) (t : String) :
    finish .plain (s ++ t).toList = finish .plain t.toList := by
  rw [String.toList_append, finish_append, h]

/-- Contained texts are put together where no comment begins at the seam. -/
theorem Contained.append {s t : String} (hs : Contained s) (ht : Contained t)
    (hseam : ∀ a ∈ (plainChars .plain s.toList).getLast?,
      ∀ b ∈ (plainChars .plain t.toList).head?, ¬ OpensComment a b) : Contained (s ++ t) := by
  have hplain := plainChars_toList_append hs.finish_eq t
  refine ⟨?_, ?_, ?_, ?_⟩
  · rw [finish_toList_append hs.finish_eq, ht.finish_eq]
  · rw [hplain, List.mem_append, not_or]
    exact ⟨hs.noHash, ht.noHash⟩
  · rw [hplain, List.mem_append, not_or]
    exact ⟨hs.noDoubleQuote, ht.noDoubleQuote⟩
  · rw [hplain, List.isChain_append]
    exact ⟨hs.noComment, ht.noComment, hseam⟩

theorem Single.append {s t : String} (hs : Single s) (ht : Single t)
    (hseam : ∀ a ∈ (plainChars .plain s.toList).getLast?,
      ∀ b ∈ (plainChars .plain t.toList).head?, ¬ OpensComment a b) : Single (s ++ t) := by
  refine ⟨hs.toContained.append ht.toContained hseam, ?_⟩
  rw [plainChars_toList_append hs.finish_eq t, List.mem_append, not_or]
  exact ⟨hs.noSemicolon, ht.noSemicolon⟩

/-- No comment begins with the end of a fragment. -/
theorem Fragment.noSeam {s : String} (hs : Fragment s) (a : Char)
    (ha : a ∈ (plainChars .plain s.toList).getLast?) (b : Char) : ¬ OpensComment a b := by
  rw [Option.mem_def] at ha
  have hend := hs.noOpenEnd
  rintro (⟨rfl, -⟩ | ⟨rfl, -⟩)
  · exact hend (by simp [ha])
  · exact hend (by simp [ha])

/-- Behind a fragment anything single is single. -/
theorem Fragment.append_single {s t : String} (hs : Fragment s) (ht : Single t) :
    Single (s ++ t) :=
  hs.toSingle.append ht fun a ha b _ => hs.noSeam a ha b

/-- **Fragments are closed under concatenation.** -/
theorem Fragment.append {s t : String} (hs : Fragment s) (ht : Fragment t) : Fragment (s ++ t) := by
  refine ⟨hs.append_single ht.toSingle, ?_⟩
  rw [plainChars_toList_append hs.finish_eq, List.getLast?_append]
  cases hlast : (plainChars .plain t.toList).getLast? with
  | none => exact hs.noOpenEnd
  | some c =>
    rw [Option.some_or, ← hlast]
    exact ht.noOpenEnd

/-- A single text with an open end becomes a fragment when a fragment follows whose first character does
not continue a comment. -/
theorem Single.append_fragment {s t : String} (hs : Single s) (ht : Fragment t)
    (hhead : ∃ c, t.toList.head? = some c ∧ c ≠ '-' ∧ c ≠ '*') : Fragment (s ++ t) := by
  obtain ⟨c, hc, hdash, hstar⟩ := hhead
  have hplain : (plainChars .plain t.toList).head? = some c := by
    obtain ⟨cs, hcs⟩ := List.head?_eq_some_iff.mp hc
    rw [hcs, plainChars, if_pos rfl, List.head?_cons]
  refine ⟨hs.append ht.toSingle fun a _ b hb => ?_, ?_⟩
  · obtain rfl : c = b := Option.some.inj (hplain.symm.trans hb)
    rintro (⟨-, h⟩ | ⟨-, h⟩)
    · exact hdash h
    · exact hstar h
  · -- the last character outside quotes is one of the second text
    have hne : plainChars .plain t.toList ≠ [] := List.ne_nil_of_mem (List.mem_of_head? hplain)
    have hlast := List.getLast?_eq_some_getLast hne
    rw [plainChars_toList_append hs.finish_eq t, List.getLast?_append, hlast, Option.some_or,
      ← hlast]
    exact ht.noOpenEnd

/-- A single text that is cut outside quotes is cut into single texts. -/
theorem Single.of_append {s t : String} (h : Single (s ++ t)) (hs : finish .plain s.toList = .plain) :
    Single s ∧ Single t := by
  have hplain := plainChars_toList_append hs t
  have hfinish := finish_toList_append hs t
  obtain ⟨⟨hend, hhash, hquote, hcomment⟩, hsemicolon⟩ := h
  rw [hplain, List.mem_append, not_or] at hhash hquote hsemicolon
  rw [hplain, List.isChain_append] at hcomment
  rw [hfinish] at hend
  exact ⟨⟨⟨hs, hhash.1, hquote.1, hcomment.1⟩, hsemicolon.1⟩,
    ⟨⟨hend, hhash.2, hquote.2, hcomment.2.1⟩, hsemicolon.2⟩⟩

theorem Fragment.empty : Fragment "" := by decide

theorem Fragment.join {texts : List String} (h : ∀ s ∈ texts, Fragment s) :
    Fragment (String.join texts) := by
  induction texts with
  | nil => exact .empty
  | cons s rest ih =>
    rw [String.join_cons]
    exact (h s (by simp)).append (ih fun t ht => h t (by simp [ht]))

/-- What holds of texts and is kept when two are put together holds of the texts joined. -/
theorem intercalate_induction {P : String → Prop} (hempty : P "")
    (happend : ∀ {s t : String}, P s → P t → P (s ++ t)) {separator : String} (hsep : P separator)
    {texts : List String} (h : ∀ s ∈ texts, P s) : P (String.intercalate separator texts) := by
  induction texts with
  | nil => exact hempty
  | cons s rest ih =>
    cases rest with
    | nil => simpa using h s (by simp)
    | cons t rest =>
      rw [String.intercalate_cons_cons]
      exact happend (happend (h s (by simp)) hsep) (ih fun u hu => h u (List.mem_cons_of_mem s hu))

theorem Fragment.intercalate {separator : String} (hsep : Fragment separator) {texts : List String}
    (h : ∀ s ∈ texts, Fragment s) : Fragment (String.intercalate separator texts) :=
  intercalate_induction .empty .append hsep h

theorem Fragment.intercalate_map {α : Type} {separator : String} (hsep : Fragment separator)
    {f : α → String} (h : ∀ a, Fragment (f a)) (as : List α) :
    Fragment (String.intercalate separator (as.map f)) := by
  refine .intercalate hsep fun s hs => ?_
  obtain ⟨a, -, rfl⟩ := List.mem_map.mp hs
  exact h a

/-! ### Inert characters -/

/-- A character that is harmless outside quotes: no semicolon, no double quote, and none that begins a
comment. -/
def Harmless (c : Char) : Prop := c ∉ [';', '"', '#', '-', '/']

instance (c : Char) : Decidable (Harmless c) := by
  unfold Harmless; infer_instance

/-- A text that has harmless characters outside quotes is a fragment. -/
theorem fragment_of_harmless {s : String} (hfinish : finish .plain s.toList = .plain)
    (h : ∀ c ∈ plainChars .plain s.toList, Harmless c) : Fragment s := by
  have hne (c : Char) (hbad : ¬ Harmless c) : c ∉ plainChars .plain s.toList :=
    fun hmem => hbad (h c hmem)
  refine ⟨⟨⟨hfinish, hne _ (by decide), hne _ (by decide), ?_⟩, hne _ (by decide)⟩, fun hlast => ?_⟩
  · rw [List.isChain_iff_forall_rel_of_append_cons_cons]
    rintro a b l₁ l₂ hl (⟨rfl, -⟩ | ⟨rfl, -⟩)
    · exact hne '-' (by decide) (by simp [hl])
    · exact hne '/' (by decide) (by simp [hl])
  · simp only [List.mem_cons, List.not_mem_nil, or_false] at hlast
    rcases hlast with hlast | hlast
    · exact hne '-' (by decide) (List.mem_of_getLast? hlast)
    · exact hne '/' (by decide) (List.mem_of_getLast? hlast)

/-- A harmless character that is no quote, no asterisk and no backslash. -/
def Inert (c : Char) : Prop := Harmless c ∧ c ∉ ['\'', '\x60', '*', '\\']

instance (c : Char) : Decidable (Inert c) := by
  unfold Inert; infer_instance

theorem inert_of_isAlphanum {c : Char} (h : c.isAlphanum = true) : Inert c := by
  have hclass : ∀ d ∈ [';', '"', '#', '-', '/'] ++ ['\'', '\x60', '*', '\\'],
      d.isAlphanum = false := List.all_iff_forall_prop.mp (by decide)
  constructor
  all_goals
    intro hmem
    rw [hclass c (by simp only [List.mem_append, hmem, true_or, or_true])] at h
    cases h

/-- A character that opens no quotes. -/
def Unquoting (c : Char) : Prop := c ≠ '\'' ∧ c ≠ '\x60'

instance (c : Char) : Decidable (Unquoting c) := by
  unfold Unquoting; infer_instance

theorem Inert.unquoting {c : Char} (h : Inert c) : Unquoting c := by
  constructor
  all_goals
    rintro rfl
    exact absurd h (by decide)

/-- A text that opens no quotes is outside quotes as a whole. -/
theorem scan_of_unquoting {cs : List Char} (h : ∀ c ∈ cs, Unquoting c) :
    finish .plain cs = .plain ∧ plainChars .plain cs = cs := by
  induction cs with
  | nil => simp
  | cons c cs ih =>
    have hnext : Mode.plain.next c = .plain := by
      obtain ⟨hquote, htick⟩ := h c (by simp)
      simp [Mode.next, hquote, htick]
    obtain ⟨hfinish, hplain⟩ := ih fun d hd => h d (by simp [hd])
    simp [plainChars, hnext, hfinish, hplain]

theorem scan_of_inert {cs : List Char} (h : ∀ c ∈ cs, Inert c) :
    finish .plain cs = .plain ∧ plainChars .plain cs = cs :=
  scan_of_unquoting fun c hc => (h c hc).unquoting

/-- A text of inert characters is a fragment. -/
theorem fragment_of_inert {s : String} (h : ∀ c ∈ s.toList, Inert c) : Fragment s := by
  obtain ⟨hfinish, hplain⟩ := scan_of_inert h
  refine fragment_of_harmless hfinish fun c hc => ?_
  rw [hplain] at hc
  exact (h c hc).1

/-- A number may have a minus sign in front of inert characters. -/
theorem fragment_minus {s : String} (h : ∀ c ∈ s.toList, Inert c) (hne : s ≠ "") :
    Fragment ("-" ++ s) := by
  obtain ⟨c, cs, hcs⟩ := List.exists_cons_of_ne_nil (mt String.toList_eq_nil_iff.mp hne)
  have hc : Inert c := h c (by simp [hcs])
  have hminus : Single "-" := by decide
  refine hminus.append_fragment (fragment_of_inert h) ⟨c, ?_, ?_, ?_⟩
  · rw [hcs, List.head?_cons]
  · rintro rfl
    exact absurd hc (by decide)
  · rintro rfl
    exact absurd hc (by decide)

/-! ### Quotes -/

/-- A character that neither ends a quoted text nor escapes the next one. -/
def Quotable (c : Char) : Prop := c ≠ '\'' ∧ c ≠ '\\'

instance (c : Char) : Decidable (Quotable c) := by
  unfold Quotable; infer_instance

theorem Inert.quotable {c : Char} (h : Inert c) : Quotable c := by
  constructor
  all_goals
    rintro rfl
    exact absurd h (by decide)

theorem quotable_of_isAlphanum {c : Char} (h : c.isAlphanum = true) : Quotable c :=
  (inert_of_isAlphanum h).quotable

theorem scan_of_quotable {cs : List Char} (h : ∀ c ∈ cs, Quotable c) :
    finish .quoted cs = .quoted ∧ plainChars .quoted cs = [] := by
  induction cs with
  | nil => simp
  | cons c cs ih =>
    have hnext : Mode.quoted.next c = .quoted := by
      obtain ⟨hquote, hbackslash⟩ := h c (by simp)
      simp [Mode.next, hquote, hbackslash]
    obtain ⟨hfinish, hplain⟩ := ih fun d hd => h d (by simp [hd])
    simp [plainChars, hnext, hfinish, hplain]

/-- Of a text whose inside keeps the scanner inside the quotes only the opening quote is outside. -/
theorem scan_quoted {cs : List Char} (hfinish : finish .quoted cs = .quoted)
    (hplain : plainChars .quoted cs = []) :
    finish .plain ('\'' :: (cs ++ ['\''])) = .plain ∧
      plainChars .plain ('\'' :: (cs ++ ['\''])) = ['\''] := by
  constructor
  · rw [finish_cons, finish_append]
    change finish (finish .quoted cs) ['\''] = .plain
    rw [hfinish]
    rfl
  · rw [plainChars, if_pos rfl, plainChars_append]
    change '\'' :: (plainChars .quoted cs ++ plainChars (finish .quoted cs) ['\'']) = ['\'']
    rw [hplain, hfinish]
    rfl

/-- A text whose inside keeps the scanner inside the quotes is a fragment. -/
theorem fragment_quoted {cs : List Char} (hfinish : finish .quoted cs = .quoted)
    (hplain : plainChars .quoted cs = []) : Fragment (String.ofList ('\'' :: (cs ++ ['\'']))) := by
  obtain ⟨hend, hchars⟩ := scan_quoted hfinish hplain
  refine fragment_of_harmless ?_ fun c hc => ?_
  · rw [String.toList_ofList, hend]
  · rw [String.toList_ofList, hchars, List.mem_singleton] at hc
    rw [hc]
    decide

theorem quote_eq_ofList (s : String) :
    "'" ++ s ++ "'" = String.ofList ('\'' :: (s.toList ++ ['\''])) := by
  rw [← String.toList_inj]
  simp

/-- A text of such characters is a fragment in quotes. -/
theorem fragment_of_quotable {s : String} (h : ∀ c ∈ s.toList, Quotable c) :
    Fragment ("'" ++ s ++ "'") := by
  rw [quote_eq_ofList]
  exact fragment_quoted (scan_of_quotable h).1 (scan_of_quotable h).2

end TypedSql.Scan
