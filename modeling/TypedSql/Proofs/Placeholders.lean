import TypedSql.Dialect
import TypedSql.Dialect.Tagged

/-!
# Placeholders

A template is read into pieces before anything is written (`Template.pieces`): placeholders, and
characters that are none. A formatter writes the pieces one by one, each placeholder with the next
binding (`Formatter.write`), and what it makes of a template is what it writes for the pieces
(`Formatter.fill_eq_write`). So the template alone says which binding stands where; question marks in
what a binding writes are never looked at.

From this a template that is put together from two is filled part by part, as long as no placeholder
lies across the seam, and bindings without a placeholder are left alone
(`Formatter.format_part_by_part`).
-/

namespace TypedSql

/-! ### Pieces of a template -/

namespace Template

/-- What a placeholder is for. -/
inductive Slot where
  | value | name
deriving DecidableEq

/-- The question marks of a placeholder. -/
def Slot.marks : Slot → List Char
  | .value => ['?']
  | .name => ['?', '?']

/-- A piece of a template. -/
inductive Piece where
  /-- A character that is no question mark. -/
  | mark (c : Char)
  | slot (s : Slot)
deriving DecidableEq

/-- The characters of a piece. -/
def Piece.chars : Piece → List Char
  | .mark c => [c]
  | .slot s => s.marks

/-- The placeholder that a piece is. -/
def Piece.slot? : Piece → Option Slot
  | .mark _ => none
  | .slot s => some s

/-- The pieces of a template. Of a row of question marks two at a time are a placeholder for a name, and
one that is left is a placeholder for a value. -/
def pieces : List Char → List Piece
  | [] => []
  | '?' :: '?' :: rest => .slot .name :: pieces rest
  | '?' :: rest => .slot .value :: pieces rest
  | c :: rest => .mark c :: pieces rest

/-- The placeholders of a template, in order. -/
def slots (template : List Char) : List Slot :=
  (pieces template).filterMap Piece.slot?

/-- The template ends with a question mark that is not the second one of a pair. -/
def EndsOpen (template : List Char) : Prop :=
  (pieces template).getLast? = some (.slot .value)

instance (template : List Char) : Decidable (EndsOpen template) := by
  unfold EndsOpen; infer_instance

/-- A placeholder lies across the seam of two templates: the first one ends with a question mark that is
not the second one of a pair, and the other one begins with a question mark. -/
def Straddled (first second : List Char) : Prop :=
  EndsOpen first ∧ second.head? = some '?'

instance (first second : List Char) : Decidable (Straddled first second) := by
  unfold Straddled; infer_instance

/-- The pieces are the whole template. -/
theorem flatMap_chars_pieces (template : List Char) :
    (pieces template).flatMap Piece.chars = template := by
  fun_induction pieces template with
  | case1 => rfl
  | case2 rest ih => simp [Piece.chars, Slot.marks, ih]
  | case3 rest hpair ih => simp [Piece.chars, Slot.marks, ih]
  | case4 c rest hpair hsingle ih => simp [Piece.chars, ih]

theorem pieces_cons {c : Char} (h : c ≠ '?') (rest : List Char) :
    pieces (c :: rest) = .mark c :: pieces rest :=
  pieces.eq_4 c rest (fun _ hc _ => h hc) h

/-- The first piece of a template does not matter for what lies across its end. -/
theorem straddled_of_pieces_eq {template rest second : List Char} {piece : Piece}
    (hsplit : pieces template = piece :: pieces rest) (h : Straddled rest second) :
    Straddled template second := by
  obtain ⟨hopen, hhead⟩ := h
  refine ⟨?_, hhead⟩
  rw [EndsOpen, hsplit, List.getLast?_cons, hopen]
  rfl

/-- **The pieces of two templates** are those of the first and then those of the second, unless a
placeholder lies across the seam. -/
theorem pieces_append {first second : List Char} (h : ¬ Straddled first second) :
    pieces (first ++ second) = pieces first ++ pieces second := by
  fun_induction pieces first with
  | case1 => rfl
  | case2 rest ih =>
    have hrest := mt (straddled_of_pieces_eq (pieces.eq_2 rest)) h
    rw [List.cons_append, List.cons_append, pieces, ih hrest, List.cons_append]
  | case3 rest hpair ih =>
    have hrest := mt (straddled_of_pieces_eq (pieces.eq_3 rest hpair)) h
    -- the question mark stays single: behind it stands the rest, or the second template
    have hpair' : ∀ rest', rest ++ second = '?' :: rest' → False := by
      intro rest' heq
      cases rest with
      | nil =>
        rw [List.nil_append] at heq
        exact h ⟨rfl, by rw [heq, List.head?_cons]⟩
      | cons c rest =>
        obtain ⟨rfl, -⟩ := List.cons.inj heq
        exact hpair rest rfl
    rw [List.cons_append, pieces.eq_3 _ hpair', ih hrest, List.cons_append]
  | case4 c rest _ hc ih =>
    have hrest := mt (straddled_of_pieces_eq (pieces_cons hc rest)) h
    rw [List.cons_append, pieces_cons hc, ih hrest, List.cons_append]

/-- A text without question marks has no placeholder. -/
theorem pieces_of_notMem {cs : List Char} (h : '?' ∉ cs) : pieces cs = cs.map .mark := by
  induction cs with
  | nil => rfl
  | cons c cs ih =>
    rw [List.mem_cons, not_or] at h
    rw [pieces_cons (Ne.symm h.1), ih h.2, List.map_cons]

end Template

open Template

/-! ### Writing the pieces -/

namespace Formatter

variable (f : Formatter)

/-- What a binding writes at a placeholder. -/
def atSlot : Slot → Binding → String
  | .value => f.atValue
  | .name => f.atName

/-- What is written for pieces with bindings. -/
def write : List Piece → List Binding → List Char
  | [], _ => []
  | .mark c :: rest, bs => c :: write rest bs
  | .slot s :: rest, [] => s.marks ++ write rest []
  | .slot s :: rest, b :: bs => (f.atSlot s b).toList ++ write rest bs

/-- **A template is read once**: what is written at its placeholders does not matter for where they
are. -/
theorem fill_eq_write (template : List Char) (bs : List Binding) :
    f.fill template bs = f.write (pieces template) bs := by
  fun_induction f.fill template bs with
  | case1 bs => rfl
  | case2 rest ih => rw [pieces, write, ih]; rfl
  | case3 rest b bs ih => rw [pieces, write, ih]; rfl
  | case4 rest hpair ih => rw [pieces.eq_3 rest hpair, write, ih]; rfl
  | case5 rest b bs hpair ih => rw [pieces.eq_3 rest hpair, write, ih]; rfl
  | case6 c rest bs _ _ hnone hsome ih =>
    have hc : c ≠ '?' := by
      cases bs with
      | nil => exact hnone rfl
      | cons b bs => exact hsome b bs rfl
    rw [pieces_cons hc, write, ih]

/-- Without bindings a template stays as it is. -/
theorem write_nil (ps : List Piece) : f.write ps [] = ps.flatMap Piece.chars := by
  induction ps with
  | nil => rfl
  | cons piece rest ih =>
    cases piece with
    | mark c => rw [write, ih]; rfl
    | slot s => rw [write, ih]; rfl

/-- Pieces that take all of their bindings are written apart from what follows. -/
theorem write_append {ps qs : List Piece} {bs cs : List Binding}
    (h : (ps.filterMap Piece.slot?).length = bs.length) :
    f.write (ps ++ qs) (bs ++ cs) = f.write ps bs ++ f.write qs cs := by
  induction ps generalizing bs with
  | nil =>
    obtain rfl : bs = [] := List.length_eq_zero_iff.mp h.symm
    rfl
  | cons piece rest ih =>
    cases piece with
    | mark c => rw [List.cons_append, write, ih h, write, List.cons_append]
    | slot s =>
      obtain ⟨b, bs, rfl⟩ := List.exists_cons_of_length_eq_add_one (h.symm.trans (by rfl))
      have hrest : (rest.filterMap Piece.slot?).length = bs.length := Nat.succ.inj h
      rw [List.cons_append, List.cons_append, write, ih hrest, write, List.append_assoc]

/-- Only as many bindings are looked at as there are placeholders. -/
theorem write_take (ps : List Piece) (bs : List Binding) :
    f.write ps (bs.take (ps.filterMap Piece.slot?).length) = f.write ps bs := by
  induction ps generalizing bs with
  | nil => rfl
  | cons piece rest ih =>
    cases piece with
    | mark c => exact congrArg (c :: ·) (ih bs)
    | slot s =>
      cases bs with
      | nil => rfl
      | cons b bs => exact congrArg ((f.atSlot s b).toList ++ ·) (ih bs)

/-! ### Templates part by part -/

theorem format_append (t₁ t₂ : String) (bs₁ bs₂ : List Binding)
    (hcount : (slots t₁.toList).length = bs₁.length) (hseam : ¬ Straddled t₁.toList t₂.toList) :
    f.format (t₁ ++ t₂) (bs₁ ++ bs₂) = f.format t₁ bs₁ ++ f.format t₂ bs₂ := by
  rw [← String.toList_inj]
  simp only [toList_format, String.toList_append, fill_eq_write]
  rw [pieces_append hseam, f.write_append hcount]

theorem format_nil (t : String) : f.format t [] = t := by
  rw [← String.toList_inj, toList_format, fill_eq_write, write_nil, flatMap_chars_pieces]

theorem format_take (t : String) (bs : List Binding) :
    f.format t (bs.take (slots t.toList).length) = f.format t bs := by
  rw [format, format, fill_eq_write, fill_eq_write]
  exact congrArg String.ofList (f.write_take (pieces t.toList) bs)

/-- **Templates are filled part by part**, whatever a formatter writes. A template of two parts is filled as
the first part with the bindings for its placeholders, and then the second part with the others, unless
a placeholder lies across the seam. A template without bindings stays as it is, and bindings for which
there is no placeholder are left alone. -/
theorem format_part_by_part (f : Formatter) :
    (∀ (t₁ t₂ : String) (bs₁ bs₂ : List Binding), (slots t₁.toList).length = bs₁.length →
        ¬ Straddled t₁.toList t₂.toList →
        f.format (t₁ ++ t₂) (bs₁ ++ bs₂) = f.format t₁ bs₁ ++ f.format t₂ bs₂) ∧
      (∀ t : String, f.format t [] = t) ∧
      ∀ (t : String) (bs more : List Binding), (slots t.toList).length ≤ bs.length →
        f.format t (bs ++ more) = f.format t bs := by
  refine ⟨f.format_append, f.format_nil, fun t bs more h => ?_⟩
  rw [← f.format_take t (bs ++ more), ← f.format_take t bs, List.take_append_of_le_length h]

/-- Three question marks in a row, and more of them in what they are filled with. -/
theorem format_part_by_part_marks :
    let f : Formatter := Dialect.tagged.formatter
    let first : List Binding := [.name "a?", .value (.text "??")]
    let second : List Binding := [.value (.text "?")]
    (slots "(???".toList).length = first.length ∧ ¬ Straddled "(???".toList ") ?".toList ∧
      f.format ("(???" ++ ") ?") (first ++ second) = "(\"a?\"<??>" ++ ") <?>" ∧
      (slots "(???".toList).length ≤ first.length ∧
      f.format "(???" (first ++ second) = "(\"a?\"<??>" := by
  have hfirst : Dialect.tagged.formatter.format "(???" [.name "a?", .value (.text "??")] =
      "(\"a?\"<??>" := by decide
  have hsecond : Dialect.tagged.formatter.format ") ?" [.value (.text "?")] = ") <?>" := by decide
  intro f first second
  obtain ⟨happend, -, hmore⟩ := format_part_by_part f
  refine ⟨rfl, by decide, ?_, Nat.le_refl 2, ?_⟩
  · rw [happend "(???" ") ?" first second rfl (by decide), hfirst, hsecond]
  · rw [hmore "(???" first second (Nat.le_refl 2), hfirst]

end Formatter

end TypedSql
