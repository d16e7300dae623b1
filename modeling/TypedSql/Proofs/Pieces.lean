import TypedSql.Proofs.Scan

/-!
# Cutting a text at separators

A text of SQL is cut at a separator wherever the scanner is outside quotes (`pieces`). What was put
together with a separator is found again when the separator has a character that none of the parts has
outside quotes (`pieces_intercalate`): no separator begins inside a part then, not even one that ends
behind it.
-/

namespace TypedSql.Scan

/-! ### Cutting -/

/-- The parts of a text between the separators that begin outside quotes. The number says how many
characters of a separator are still to be passed over. -/
def cut (separator : List Char) : Nat → Mode → List Char → List (List Char)
  | _, _, [] => [[]]
  | skip + 1, m, c :: cs => cut separator skip (m.next c) cs
  | 0, m, c :: cs =>
    if m = .plain ∧ separator <+: c :: cs then
      [] :: cut separator (separator.length - 1) (m.next c) cs
    else (cut separator 0 (m.next c) cs).modifyHead (c :: ·)

/-- The pieces of a text between the separators outside quotes. -/
def pieces (separator s : String) : List String :=
  (cut separator.toList 0 .plain s.toList).map String.ofList

/-- The pattern stands outside quotes in the text. -/
def Occurs (pattern s : String) : Prop :=
  ∃ before after, s.toList = before ++ (pattern.toList ++ after) ∧ finish .plain before = .plain

theorem cut_skip (separator : List Char) (m : Mode) (cs rest : List Char) :
    cut separator cs.length m (cs ++ rest) = cut separator 0 (finish m cs) rest := by
  induction cs generalizing m with
  | nil => rfl
  | cons c cs ih => exact ih (m.next c)

theorem cut_cons {separator : List Char} {m : Mode} {c : Char} {cs : List Char}
    (h : m = .plain → ¬ separator <+: c :: cs) :
    cut separator 0 m (c :: cs) = (cut separator 0 (m.next c) cs).modifyHead (c :: ·) := by
  rw [cut, if_neg fun hbegin => h hbegin.1 hbegin.2]

/-! ### Where a separator begins -/

theorem mem_plainChars_cons {m : Mode} {a c : Char} {cs : List Char}
    (h : a ∈ plainChars (m.next c) cs) : a ∈ plainChars m (c :: cs) := by
  rw [plainChars]
  split
  · exact List.mem_cons_of_mem c h
  · exact h

/-- Two lists agree up to the first occurrence of an element. -/
theorem eq_of_append_cons_eq {α : Type} {a : α} {xs ys us vs : List α} (hxs : a ∉ xs) (hys : a ∉ ys)
    (h : xs ++ a :: us = ys ++ a :: vs) : xs = ys := by
  rcases List.append_eq_append_iff.mp h with ⟨zs, rfl, hzs⟩ | ⟨zs, rfl, hzs⟩
  all_goals
    cases zs with
    | nil => rw [List.append_nil]
    | cons z zs =>
      obtain rfl : a = z := (List.cons.inj hzs).1
      simp at hxs hys

section Separator

variable {separator : List Char} {a : Char} (hinert : ∀ c ∈ separator, Inert c) (ha : a ∈ separator)

include hinert ha

theorem mem_plainChars_of_prefix {cs : List Char} (h : separator <+: cs) :
    a ∈ plainChars .plain cs := by
  obtain ⟨rest, rfl⟩ := h
  rw [plainChars_append, (scan_of_inert hinert).2]
  exact List.mem_append_left _ ha

/-- A separator that begins in front of another one has its own characters there. -/
theorem mem_plainChars_of_prefix_append {cs rest : List Char} (hne : cs ≠ [])
    (h : separator <+: cs ++ (separator ++ rest)) : a ∈ plainChars .plain cs := by
  obtain ⟨before, after, rfl, hbefore⟩ := List.eq_append_cons_of_mem ha
  obtain ⟨more, hmore⟩ := h
  simp only [List.append_assoc, List.cons_append] at hmore
  by_cases hmem : a ∈ cs
  · -- the first such character of the separator is the first one of the text
    obtain ⟨before', after', rfl, hbefore'⟩ := List.eq_append_cons_of_mem hmem
    simp only [List.append_assoc, List.cons_append] at hmore
    obtain rfl : before = before' := eq_of_append_cons_eq hbefore hbefore' hmore
    have hscan := scan_of_inert fun c hc => hinert c (List.mem_append_left _ hc)
    rw [plainChars_append, hscan.1, plainChars, if_pos rfl]
    exact List.mem_append_right _ List.mem_cons_self
  · -- it would stand behind the text, and so farther behind than in the separator
    rw [← List.append_assoc] at hmore
    have hsame : before = cs ++ before := by
      refine eq_of_append_cons_eq hbefore ?_ hmore
      rw [List.mem_append, not_or]
      exact ⟨hmem, hbefore⟩
    exact absurd (List.self_eq_append_left.mp hsame) hne

theorem cut_of_notMem {m : Mode} {cs : List Char} (hcs : a ∉ plainChars m cs) :
    cut separator 0 m cs = [cs] := by
  induction cs generalizing m with
  | nil => simp [cut]
  | cons c cs ih =>
    have hnot (hm : m = .plain) : ¬ separator <+: c :: cs := by
      rintro hprefix
      exact hcs (hm ▸ mem_plainChars_of_prefix hinert ha hprefix)
    rw [cut_cons hnot, ih fun hmem => hcs (mem_plainChars_cons hmem), List.modifyHead_cons]

theorem cut_append {m : Mode} {cs : List Char} (hfinish : finish m cs = .plain)
    (hcs : a ∉ plainChars m cs) (rest : List Char) :
    cut separator 0 m (cs ++ (separator ++ rest)) = cs :: cut separator 0 .plain rest := by
  induction cs generalizing m with
  | nil =>
    obtain rfl : m = .plain := hfinish
    obtain ⟨c, separator, rfl⟩ := List.exists_cons_of_ne_nil (List.ne_nil_of_mem ha)
    have hnext : finish (Mode.plain.next c) separator = .plain := (scan_of_inert hinert).1
    rw [List.nil_append, List.cons_append, cut, if_pos ⟨rfl, List.prefix_append ..⟩,
      List.length_cons, Nat.add_sub_cancel, cut_skip, hnext]
  | cons c cs ih =>
    have hnot (hm : m = .plain) : ¬ separator <+: c :: (cs ++ (separator ++ rest)) := by
      intro hprefix
      exact hcs (hm ▸ mem_plainChars_of_prefix_append hinert ha (List.cons_ne_nil c cs) hprefix)
    rw [List.cons_append, cut_cons hnot, ih hfinish fun hmem => hcs (mem_plainChars_cons hmem),
      List.modifyHead_cons]

end Separator

/-! ### Parts without a separator -/

/-- The text begins and ends outside quotes, and has none of the characters there. -/
structure Avoids (cs : List Char) (s : String) : Prop where
  finish_eq : finish .plain s.toList = .plain
  notMem : ∀ c ∈ cs, c ∉ plainChars .plain s.toList

-- `List.all` keeps the test from running over all characters
instance (cs : List Char) (s : String) : Decidable (Avoids cs s) :=
  decidable_of_iff (finish .plain s.toList = .plain ∧
      (cs.all fun c => c ∉ plainChars .plain s.toList) = true)
    ⟨fun ⟨h₁, h₂⟩ => ⟨h₁, List.all_iff_forall_prop.mp h₂⟩,
      fun ⟨h₁, h₂⟩ => ⟨h₁, List.all_iff_forall_prop.mpr h₂⟩⟩

variable {cs : List Char}

theorem avoids_of_unquoting {s : String} (h : ∀ c ∈ s.toList, Unquoting c ∧ c ∉ cs) : Avoids cs s := by
  obtain ⟨hfinish, hplain⟩ := scan_of_unquoting fun c hc => (h c hc).1
  refine ⟨hfinish, fun c hc hmem => ?_⟩
  rw [hplain] at hmem
  exact (h c hmem).2 hc

theorem Avoids.append {s t : String} (hs : Avoids cs s) (ht : Avoids cs t) : Avoids cs (s ++ t) := by
  refine ⟨?_, fun c hc => ?_⟩
  · rw [finish_toList_append hs.finish_eq, ht.finish_eq]
  · rw [plainChars_toList_append hs.finish_eq, List.mem_append, not_or]
    exact ⟨hs.notMem c hc, ht.notMem c hc⟩

theorem Avoids.intercalate {separator : String} (hsep : Avoids cs separator) {texts : List String}
    (h : ∀ s ∈ texts, Avoids cs s) : Avoids cs (String.intercalate separator texts) :=
  intercalate_induction ⟨rfl, by simp⟩ .append hsep h

theorem Avoids.mono {ds : List Char} {s : String} (h : Avoids cs s) (hsubset : ds ⊆ cs) : Avoids ds s :=
  ⟨h.finish_eq, fun c hc => h.notMem c (hsubset hc)⟩

/-- **What was joined is found again** by cutting at the separators, if the separator has a character
that is outside quotes in none of the parts. -/
theorem pieces_intercalate {separator : String} (hinert : ∀ c ∈ separator.toList, Inert c) {a : Char}
    (ha : a ∈ separator.toList) {texts : List String} (hne : texts ≠ [])
    (h : ∀ s ∈ texts, Avoids [a] s) : pieces separator (String.intercalate separator texts) = texts := by
  unfold pieces
  induction texts with
  | nil => exact absurd rfl hne
  | cons s rest ih =>
    have hs := h s (by simp)
    have hsa := hs.notMem a (by simp)
    cases rest with
    | nil => simp [cut_of_notMem hinert ha hsa]
    | cons t rest =>
      have hrest := ih (by simp) fun u hu => h u (List.mem_cons_of_mem s hu)
      rw [String.intercalate_cons_cons, String.toList_append, String.toList_append, List.append_assoc,
        cut_append hinert ha hs.finish_eq hsa, List.map_cons, String.ofList_toList, hrest]

example : pieces " OR " "a = 1 OR b = ' OR '" = ["a = 1", "b = ' OR '"] := rfl

theorem Occurs.infix_plainChars {pattern s : String} (h : Occurs pattern s)
    (hinert : ∀ c ∈ pattern.toList, Inert c) : pattern.toList <:+: plainChars .plain s.toList := by
  obtain ⟨before, after, hs, hbefore⟩ := h
  rw [hs, plainChars_append, hbefore, plainChars_append, (scan_of_inert hinert).2, ← List.append_assoc]
  exact List.infix_append ..

end TypedSql.Scan
