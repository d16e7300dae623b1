import Mathlib.Data.List.Forall2
import TypedSql.Proofs.Lexer

/-!
# Literals read back

The literal of every value is read back (`literal_read_back`): its words are the names, texts, dates and
times in the value from left to right (`inscriptions`), and the parentheses among its marks are balanced.

`Reads` says this of a text wherever it stands in front of one that does not go on with its quotes
(`Boundary`). The separators between items, and between a name and its value, do not, so what is read is
put together along the value.
-/

namespace TypedSql.MySql

open Scan

/-! ### Parentheses -/

/-- How many parentheses are open at the end of a text when so many are at its beginning, unless one is
closed that is not open. -/
def depth : Nat → List Char → Option Nat
  | n, [] => some n
  | n, '(' :: cs => depth (n + 1) cs
  | 0, ')' :: _ => none
  | n + 1, ')' :: cs => depth n cs
  | n, _ :: cs => depth n cs

/-- The parentheses are balanced. -/
def Balanced (cs : List Char) : Prop := depth 0 cs = some 0

theorem depth_append (n : Nat) (cs ds : List Char) :
    depth n (cs ++ ds) = (depth n cs).bind fun m => depth m ds := by
  fun_induction depth n cs with
  | case1 => rfl
  | case3 => rfl
  | case2 n cs ih => exact ih
  | case4 n cs ih => exact ih
  | case5 n c cs hopen hclose₀ hclose ih =>
    rw [List.cons_append, depth.eq_5 n c _ hopen hclose₀ hclose, ih]

/-- Around a text more parentheses may be open. -/
theorem depth_add {n m : Nat} {cs : List Char} (h : depth n cs = some m) (k : Nat) :
    depth (n + k) cs = some (m + k) := by
  fun_induction depth n cs with
  | case1 n => rw [depth, Option.some.inj h]
  | case2 n cs ih => rw [depth, Nat.add_right_comm, ih h]
  | case3 => cases h
  | case4 n cs ih => rw [Nat.succ_add, depth, ih h]
  | case5 n c cs hopen hclose₀ hclose ih =>
    have hnot : c ≠ ')' := by
      rintro rfl
      cases n with
      | zero => exact hclose₀ rfl rfl
      | succ n => exact hclose n rfl rfl
    rw [depth.eq_5 _ c cs hopen (fun _ => hnot) (fun _ _ => hnot), ih h]

theorem Balanced.append {cs ds : List Char} (hcs : Balanced cs) (hds : Balanced ds) :
    Balanced (cs ++ ds) := by
  rw [Balanced, depth_append, hcs]
  exact hds

theorem Balanced.parentheses {cs : List Char} (h : Balanced cs) :
    Balanced ('(' :: (cs ++ [')'])) := by
  have hinner : depth 1 cs = some 1 := depth_add h 1
  rw [Balanced, depth, depth_append, hinner]
  rfl

/-- A character that is neither a quote nor a parenthesis. -/
def Bare (c : Char) : Prop := c ∉ ['\'', '\x60', '(', ')']

instance (c : Char) : Decidable (Bare c) := by
  unfold Bare; infer_instance

theorem Bare.unquoting {c : Char} (h : Bare c) : Unquoting c := by
  constructor
  all_goals
    rintro rfl
    exact h (by decide)

theorem bare_of_isDigit {c : Char} (h : c.isDigit = true) : Bare c := by
  have hclass : ∀ d ∈ ['\'', '\x60', '(', ')'], d.isDigit = false :=
    List.all_iff_forall_prop.mp (by decide)
  intro hmem
  rw [hclass c hmem] at h
  cases h

theorem balanced_of_bare {cs : List Char} (h : ∀ c ∈ cs, Bare c) : Balanced cs := by
  induction cs with
  | nil => rfl
  | cons c cs ih =>
    rw [List.forall_mem_cons] at h
    have hopen : c ≠ '(' := fun hc => h.1 (by simp [hc])
    have hclose : c ≠ ')' := fun hc => h.1 (by simp [hc])
    rw [Balanced, depth.eq_5 0 c cs hopen (fun _ => hclose) (fun _ _ => hclose)]
    exact ih h.2

/-! ### What is read back -/

/-- In front of a text that does not go on with its quotes the text is read as the words, with balanced
parentheses around them. -/
def Reads (s : String) (ws : List Word) : Prop :=
  ∃ tokens, words tokens = ws ∧ Balanced (marks tokens) ∧
    ∀ rest, Boundary rest → lex (s.toList ++ rest) = (lex rest).map (tokens ++ ·)

theorem words_append (ts us : List Token) : words (ts ++ us) = words ts ++ words us :=
  List.filterMap_append

theorem marks_append (ts us : List Token) : marks (ts ++ us) = marks ts ++ marks us :=
  List.filterMap_append

theorem Reads.empty : Reads "" [] :=
  ⟨[], rfl, rfl, fun rest _ => by simp⟩

theorem marks_map_mark (cs : List Char) : marks (cs.map .mark) = cs := by
  simp [marks, List.filterMap_map]

theorem words_map_mark (cs : List Char) : words (cs.map .mark) = [] := by
  simp [words]

/-- One word is read as that word. -/
theorem reads_word {s : String} {w : Word}
    (h : ∀ rest, Boundary rest → next? (s.toList ++ rest) = some (.word w, rest)) : Reads s [w] :=
  ⟨[.word w], rfl, rfl, fun rest hrest => lex_of_next? (h rest hrest)⟩

/-- A text without quotes and parentheses is read as no words. -/
theorem reads_bare {s : String} (h : ∀ c ∈ s.toList, Bare c) : Reads s [] := by
  refine ⟨s.toList.map .mark, words_map_mark _, ?_, fun rest _ =>
    lex_marks (fun c hc => (h c hc).unquoting) rest⟩
  rw [marks_map_mark]
  exact balanced_of_bare h

/-- A text that ends the quotes in front of it and has no quotes and no parentheses. -/
def Separates (separator : String) : Prop :=
  Boundary separator.toList ∧ separator ≠ "" ∧ ∀ c ∈ separator.toList, Bare c

instance (separator : String) : Decidable (Separates separator) :=
  decidable_of_iff
    (Boundary separator.toList ∧ separator ≠ "" ∧ separator.toList.all fun c => decide (Bare c))
    (and_congr_right' (and_congr_right' List.all_iff_forall_prop))

theorem Boundary.append {cs : List Char} (h : Boundary cs) (hne : cs ≠ []) (rest : List Char) :
    Boundary (cs ++ rest) := by
  obtain ⟨c, cs, rfl⟩ := List.exists_cons_of_ne_nil hne
  obtain ⟨hquote, htick, hdot⟩ := h
  exact ⟨hquote, htick, hdot⟩

/-- What is read in front of a separator and what is read behind it is read one after the other. -/
theorem Reads.append {separator s t : String} {ws us : List Word} (hs : Reads s ws)
    (hsep : Separates separator) (ht : Reads t us) : Reads (s ++ separator ++ t) (ws ++ us) := by
  obtain ⟨tokens, rfl, hbalanced, hread⟩ := hs
  obtain ⟨tokens', rfl, hbalanced', hread'⟩ := ht
  obtain ⟨hboundary, hne, hbare⟩ := hsep
  refine ⟨tokens ++ (separator.toList.map .mark ++ tokens'), ?_, ?_, fun rest hrest => ?_⟩
  · simp [words_append, words_map_mark]
  · rw [marks_append, marks_append, marks_map_mark]
    exact hbalanced.append ((balanced_of_bare hbare).append hbalanced')
  · have hfollow := hboundary.append (mt String.toList_eq_nil_iff.mp hne) (t.toList ++ rest)
    rw [String.toList_append, String.toList_append, List.append_assoc, List.append_assoc,
      hread _ hfollow, lex_marks (fun c hc => (hbare c hc).unquoting), hread' rest hrest]
    simp [Function.comp_def]

theorem Reads.parentheses {s : String} {ws : List Word} (h : Reads s ws) :
    Reads ("(" ++ s ++ ")") ws := by
  obtain ⟨tokens, rfl, hbalanced, hread⟩ := h
  refine ⟨.mark '(' :: (tokens ++ [.mark ')']), ?_, ?_, fun rest hrest => ?_⟩
  · simp [words]
  · have hmarks : marks (.mark '(' :: (tokens ++ [.mark ')'])) = '(' :: (marks tokens ++ [')']) := by
      simp [marks]
    rw [hmarks]
    exact hbalanced.parentheses
  · have hopen : ∀ c ∈ ['('], Unquoting c := List.all_iff_forall_prop.mp (by decide)
    have hclose : ∀ c ∈ [')'], Unquoting c := List.all_iff_forall_prop.mp (by decide)
    have hsplit : ("(" ++ s ++ ")").toList ++ rest = ['('] ++ (s.toList ++ ([')'] ++ rest)) := by
      simp
    have hfollow : Boundary ([')'] ++ rest) := Boundary.append (by decide) (by decide) rest
    rw [hsplit, lex_marks hopen, hread _ hfollow, lex_marks hclose]
    simp [Function.comp_def]

theorem Reads.intercalate {separator : String} (hsep : Separates separator) {texts : List String}
    {wss : List (List Word)} (h : List.Forall₂ Reads texts wss) :
    Reads (String.intercalate separator texts) wss.flatten := by
  induction h with
  | nil => exact .empty
  | cons hs hrest ih =>
    cases hrest with
    | nil => simpa using hs
    | cons =>
      rw [String.intercalate_cons_cons, List.flatten_cons]
      exact hs.append hsep ih

/-! ### Values -/

mutual

/-- The names, texts, dates and times in a value, from left to right. -/
def inscriptions : Value → List Word
  | .text s => [.text s]
  | .datetime t => [.text t.text]
  | .list items => itemInscriptions items
  | .map fields => fieldInscriptions fields
  | .null | .bool _ | .int _ | .float _ => []

/-- The names, texts, dates and times in the items of a list. -/
def itemInscriptions : List Value → List Word
  | [] => []
  | v :: rest => inscriptions v ++ itemInscriptions rest

/-- The names of the fields of a map, each in front of what is in its value. -/
def fieldInscriptions : List (String × Value) → List Word
  | [] => []
  | (name, v) :: rest => .name name :: (inscriptions v ++ fieldInscriptions rest)

end

theorem itemInscriptions_eq_flatten (items : List Value) :
    itemInscriptions items = (items.map inscriptions).flatten := by
  induction items with
  | nil => rfl
  | cons v rest ih => simp [itemInscriptions, ih]

theorem fieldInscriptions_eq_flatten (fields : List (String × Value)) :
    fieldInscriptions fields =
      (fields.map fun field => .name field.1 :: inscriptions field.2).flatten := by
  induction fields with
  | nil => rfl
  | cons field rest ih => simp [fieldInscriptions, ih]

theorem reads_identifier (name : String) : Reads (identifier name) [.name name] :=
  reads_word fun _ hrest => next?_identifier name hrest.noTick hrest.noDot

mutual

/-- The literal of every value is read as what is inscribed in the value. -/
theorem reads_literal (v : Value) : Reads (literal v) (inscriptions v) := by
  cases v with
  | null => rw [literal]; exact reads_bare (List.all_iff_forall_prop.mp (by decide))
  | bool b =>
    rw [literal]
    cases b <;> exact reads_bare (List.all_iff_forall_prop.mp (by decide))
  | int n =>
    refine reads_bare fun c hc => ?_
    rw [literal] at hc
    rcases Decimal.mem_integerText hc with hdigit | rfl
    · exact bare_of_isDigit hdigit
    · decide
  | float x =>
    have hletters : ∀ d ∈ ['-', '.', 'N', 'a', 'i', 'n', 'f'], Bare d :=
      List.all_iff_forall_prop.mp (by decide)
    rw [literal]
    split
    · refine reads_bare fun c hc => ?_
      rcases Decimal.mem_floatText hc with hdigit | hletter
      · exact bare_of_isDigit hdigit
      · exact hletters c hletter
    · exact reads_bare (List.all_iff_forall_prop.mp (by decide))
  | text s =>
    rw [literal]
    exact reads_word fun _ hrest => next?_textLiteral s hrest.noQuote
  | datetime t => rw [literal]; exact reads_word fun _ hrest => next?_datetime t hrest.noQuote
  | list items =>
    rw [literal, inscriptions, itemInscriptions_eq_flatten]
    exact .intercalate (by decide) (reads_itemLiterals items)
  | map fields =>
    rw [literal, inscriptions, fieldInscriptions_eq_flatten]
    exact .intercalate (by decide) (reads_fieldLiterals fields)

theorem reads_itemLiterals (items : List Value) :
    List.Forall₂ Reads (itemLiterals items) (items.map inscriptions) := by
  cases items with
  | nil => rw [itemLiterals]; exact .nil
  | cons v rest =>
    have hrest := reads_itemLiterals rest
    cases v with
    | list inner =>
      rw [itemLiterals, List.map_cons, inscriptions, itemInscriptions_eq_flatten]
      exact .cons (.parentheses (.intercalate (by decide) (reads_itemLiterals inner))) hrest
    | _ =>
      simp only [itemLiterals, List.map_cons]
      exact .cons (reads_literal _) hrest

theorem reads_fieldLiterals (fields : List (String × Value)) :
    List.Forall₂ Reads (fieldLiterals fields)
      (fields.map fun field => .name field.1 :: inscriptions field.2) := by
  cases fields with
  | nil => rw [fieldLiterals]; exact .nil
  | cons field rest =>
    obtain ⟨name, v⟩ := field
    rw [fieldLiterals, List.map_cons]
    exact .cons ((reads_identifier name).append (by decide) (reads_literal v))
      (reads_fieldLiterals rest)

end

/-- **Literals are read back.** Whatever the value, its literal is read to its end and ends outside
quotes; the words in it are the names, texts, dates and times in the value from left to right, and the
parentheses between them are balanced. The literal of a text ends where it ends: in front of anything
but another quote it is the first word, and what is left is what follows it. -/
theorem literal_read_back (v : Value) :
    (finish .plain (literal v).toList = .plain ∧
      ∃ tokens, lex (literal v).toList = some tokens ∧ words tokens = inscriptions v ∧
        Balanced (marks tokens)) ∧
    ∀ (s : String) (rest : List Char), rest.head? ≠ some '\'' →
      next? ((literal (.text s)).toList ++ rest) = some (.word (.text s), rest) := by
  obtain ⟨tokens, hwords, hbalanced, hread⟩ := reads_literal v
  have hlex : lex (literal v).toList = some tokens := by
    have hend := hread [] (by decide)
    simpa using hend
  refine ⟨⟨finish_of_lex hlex, tokens, hlex, hwords, hbalanced⟩, fun s rest hrest => ?_⟩
  rw [literal]
  exact next?_textLiteral s hrest

/-- A name with a back-tick in front of a dot, a list in a list, and texts of quotes and backslashes. -/
theorem literal_read_back_quotes :
    let v : Value := .map [("a\x60.b", .list [.list [.text "it's (", .null], .text "\\"])]
    literal v = "\x60a\x60\x60\x60.\x60b\x60 = ('it\\'s (', NULL), '\\\\'" ∧
      (∃ tokens, lex (literal v).toList = some tokens ∧
        words tokens = [.name "a\x60.b", .text "it's (", .text "\\"] ∧ Balanced (marks tokens)) ∧
      [','].head? ≠ some '\'' ∧
      next? ((literal (.text "it's (")).toList ++ [',']) = some (.word (.text "it's ("), [',']) := by
  intro v
  obtain ⟨⟨-, hlex⟩, hnext⟩ := literal_read_back v
  exact ⟨rfl, hlex, by decide, hnext "it's (" [','] (by decide)⟩

end TypedSql.MySql
