import TypedSql.Proofs.TextForms

/-!
# The normal form loses line ends only

The normal form escapes what stands behind the line ends written in one way: it is `lineFeeds`, which
writes each line end as LF, followed by `escapeMark` character by character. Escapes can be undone
(`unescape?_flatMap`), and every quote in an escaped text stands behind a backslash that opens its
escape. So two texts have the same normal form exactly when they differ in the style of their line ends
(`Text.normalise_lossless`).
-/

namespace TypedSql.Text

/-! ### Line ends -/

/-- The text with each line end (CR LF, LF CR, CR or LF, taken in pairs from the left) written as LF. -/
def lineFeeds : List Char → List Char
  | [] => []
  | '\r' :: '\n' :: rest => '\n' :: lineFeeds rest
  | '\n' :: '\r' :: rest => '\n' :: lineFeeds rest
  | '\r' :: rest => '\n' :: lineFeeds rest
  | c :: rest => c :: lineFeeds rest

theorem notMem_lineFeeds (cs : List Char) : '\r' ∉ lineFeeds cs := by
  fun_induction lineFeeds cs with
  | case1 => simp
  | case5 c rest _ _ hc ih =>
    rw [List.mem_cons, not_or]
    exact ⟨fun h => hc h.symm, ih⟩
  | _ => simpa

/-- Where there is no carriage return, all line ends are written as LF already. -/
theorem lineFeeds_of_notMem {cs : List Char} (h : '\r' ∉ cs) : lineFeeds cs = cs := by
  fun_induction lineFeeds cs with
  | case1 => rfl
  | case5 c rest _ _ _ ih => rw [ih (List.not_mem_of_not_mem_cons h)]
  | _ => simp at h

/-! ### Escapes -/

/-- A character as it is escaped. -/
def escapeMark : Char → List Char
  | '\\' => ['\\', '\\']
  | '\'' => ['\\', '\'']
  | '"' => ['\\', '"']
  | '\x00' => ['\\', '0']
  | c => [c]

/-- The character that an escape stands for: the character behind the backslash decides, and only four
characters may follow it. -/
def escaped? : Char → Option Char
  | '\\' => some '\\'
  | '\'' => some '\''
  | '"' => some '"'
  | '0' => some '\x00'
  | _ => none

/-- The text with its escapes undone; none when a backslash opens no escape. -/
def unescape? : List Char → Option (List Char)
  | [] => some []
  | ['\\'] => none
  | '\\' :: mark :: rest => (escaped? mark).bind fun c => (unescape? rest).map (c :: ·)
  | c :: rest => (unescape? rest).map (c :: ·)

/-- A character is escaped as a backslash and one that stands for it, or it is no quote, no backslash
and no NUL and stays. -/
theorem escapeMark_cases (c : Char) :
    (∃ mark, escapeMark c = ['\\', mark] ∧ escaped? mark = some c) ∨
      (escapeMark c = [c] ∧ c ∉ ['\\', '\'', '"', '\x00']) := by
  unfold escapeMark
  split
  case h_5 => exact .inr ⟨rfl, by simp_all⟩
  all_goals exact .inl ⟨_, rfl, rfl⟩

/-- What was escaped is read back. -/
theorem unescape?_flatMap (cs : List Char) : unescape? (cs.flatMap escapeMark) = some cs := by
  induction cs with
  | nil => rfl
  | cons c cs ih =>
    rw [List.flatMap_cons]
    rcases escapeMark_cases c with ⟨mark, hescape, hescaped⟩ | ⟨hsame, hplain⟩
    · rw [hescape]
      change (escaped? mark).bind (fun c => (unescape? (cs.flatMap escapeMark)).map (c :: ·)) = _
      rw [hescaped, ih]
      rfl
    · have hbackslash : c ≠ '\\' := fun h => hplain (by simp [h])
      rw [hsame, List.singleton_append, unescape?.eq_4 c _ (fun h _ => hbackslash h)
        (fun _ _ h _ => hbackslash h), ih, Option.map_some]

/-- A quote in an escaped text is a quote of the text: what stands before it was escaped, but for the
backslash that opens its escape. -/
theorem escape_of_quote {cs before after : List Char} {q : Char} (hq : q = '\'' ∨ q = '"')
    (h : cs.flatMap escapeMark = before ++ q :: after) :
    ∃ front back, cs = front ++ q :: back ∧ before = front.flatMap escapeMark ++ ['\\'] := by
  induction cs generalizing before with
  | nil => simp at h
  | cons c cs ih =>
    rw [List.flatMap_cons] at h
    rcases escapeMark_cases c with ⟨mark, hescape, hescaped⟩ | ⟨hsame, hplain⟩
    · rw [hescape] at h
      match before with
      | [] =>
        obtain ⟨rfl, -⟩ := List.cons.inj h
        simp at hq
      | [b] =>
        obtain ⟨rfl, rfl, -⟩ : '\\' = b ∧ mark = q ∧ _ := by simpa using h
        obtain rfl : mark = c := by rcases hq with rfl | rfl <;> exact Option.some.inj hescaped
        exact ⟨[], cs, rfl, rfl⟩
      | b :: b' :: before =>
        obtain ⟨rfl, rfl, hrest⟩ : '\\' = b ∧ mark = b' ∧ cs.flatMap escapeMark = before ++ q :: after := by
          simpa using h
        obtain ⟨front, back, rfl, rfl⟩ := ih hrest
        exact ⟨c :: front, back, rfl, by simp [hescape]⟩
    · rw [hsame] at h
      match before with
      | [] =>
        obtain ⟨rfl, -⟩ := List.cons.inj h
        rcases hq with rfl | rfl <;> simp at hplain
      | b :: before =>
        obtain ⟨rfl, hrest⟩ := List.cons.inj h
        obtain ⟨front, back, rfl, rfl⟩ := ih hrest
        exact ⟨c :: front, back, rfl, by simp [hsame]⟩

theorem notMem_flatMap_escapeMark (cs : List Char) : '\x00' ∉ cs.flatMap escapeMark := by
  intro h
  obtain ⟨c, -, hc⟩ := List.mem_flatMap.mp h
  rcases escapeMark_cases c with ⟨mark, hescape, hescaped⟩ | ⟨hsame, hplain⟩
  · rw [hescape] at hc
    obtain rfl : '\x00' = mark := by simpa using hc
    cases hescaped
  · rw [hsame, List.mem_singleton] at hc
    exact hplain (by simp [← hc])

/-! ### The normal form -/

/-- **The normal form is the text with LF at its line ends, escaped.** -/
theorem normaliseChars_eq_flatMap (cs : List Char) :
    normaliseChars cs = (lineFeeds cs).flatMap escapeMark := by
  fun_induction normaliseChars cs with
  | case1 => rfl
  | case10 c rest hbackslash hquote hdouble hnul hpair hreturn hpair' hfeed ih =>
    rw [lineFeeds.eq_5 c rest hpair hpair' hreturn, List.flatMap_cons, ← ih]
    rw [escapeMark.eq_5 c hbackslash hquote hdouble hnul, List.singleton_append]
  | case2 rest ih | case3 rest ih | case4 rest ih | case5 rest ih | case6 rest ih | case8 rest ih =>
    simp [lineFeeds, escapeMark, ih]
  | case7 rest hpair ih => simp [lineFeeds, escapeMark, ih]
  | case9 rest hpair ih =>
    have hreturn : '\n' ≠ '\r' := by decide
    rw [lineFeeds.eq_5 '\n' rest (fun _ h => absurd h hreturn) (fun rest' _ => hpair rest') hreturn,
      List.flatMap_cons, ← ih]
    rfl

theorem unescape?_normaliseChars (cs : List Char) :
    unescape? (normaliseChars cs) = some (lineFeeds cs) := by
  rw [normaliseChars_eq_flatMap, unescape?_flatMap]

/-- **The normal form is lossless up to the style of line ends**: undoing its escapes gives the text with
LF at its line ends. It holds no carriage return and no NUL, and each quote in it stands behind a
backslash that opens an escape, because all that is in front of that backslash can be read. So two texts
have the same normal form exactly when they are the same with LF at their line ends, and writing LF at
line ends a second time changes nothing. -/
theorem normalise_lossless :
    (∀ s : String, unescape? (normalise s).toList = some (lineFeeds s.toList) ∧
      '\r' ∉ (normalise s).toList ∧ '\x00' ∉ (normalise s).toList ∧
      ∀ before q after, q = '\'' ∨ q = '"' → (normalise s).toList = before ++ q :: after →
        ∃ front, before = front ++ ['\\'] ∧ (unescape? front).isSome) ∧
    (∀ s t : String, normalise s = normalise t ↔ lineFeeds s.toList = lineFeeds t.toList) ∧
    ∀ cs, lineFeeds (lineFeeds cs) = lineFeeds cs := by
  refine ⟨fun s => ?_, fun s t => ⟨fun h => ?_, fun h => ?_⟩, fun cs => ?_⟩
  · rw [toList_normalise]
    refine ⟨unescape?_normaliseChars s.toList, notMem_normaliseChars s.toList, ?_, ?_⟩
    · rw [normaliseChars_eq_flatMap]
      exact notMem_flatMap_escapeMark _
    · intro before q after hq h
      rw [normaliseChars_eq_flatMap] at h
      obtain ⟨front, -, -, hbefore⟩ := escape_of_quote hq h
      exact ⟨front.flatMap escapeMark, hbefore, by rw [unescape?_flatMap]; rfl⟩
  · -- both texts are read back from one normal form
    have hread := unescape?_normaliseChars s.toList
    rw [← toList_normalise, h, toList_normalise, unescape?_normaliseChars] at hread
    exact (Option.some.inj hread).symm
  · rw [← String.toList_inj, toList_normalise, toList_normalise, normaliseChars_eq_flatMap, h,
      ← normaliseChars_eq_flatMap]
  · exact lineFeeds_of_notMem (notMem_lineFeeds cs)

/-- Line ends of every style next to each other, quotes and a NUL. -/
theorem normalise_lossless_mixed :
    let s := "'\r\n\r\r\n\n\r\\\"\x00"
    let t := "'\n\r\n\n\r\n\\\"\x00"
    let normal := "\\'\n\n\n\n\\\\\\\"\\0"
    normalise s = normal ∧ normalise t = normal ∧
      normal.toList = "\\'\n\n\n\n\\\\\\".toList ++ '"' :: ['\\', '0'] ∧
      (∃ front, "\\'\n\n\n\n\\\\\\".toList = front ++ ['\\'] ∧ (unescape? front).isSome) ∧
      lineFeeds s.toList = lineFeeds t.toList := by
  intro s t normal
  have hs : normalise s = normal := by decide
  have ht : normalise t = normal := by decide
  have hsplit : normal.toList = "\\'\n\n\n\n\\\\\\".toList ++ '"' :: ['\\', '0'] := by decide
  refine ⟨hs, ht, hsplit, ?_, (normalise_lossless.2.1 s t).mp (hs.trans ht.symm)⟩
  exact (normalise_lossless.1 s).2.2.2 _ '"' ['\\', '0'] (.inr rfl) (by rw [hs, hsplit])

end TypedSql.Text
