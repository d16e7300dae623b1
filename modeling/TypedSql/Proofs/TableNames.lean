import TypedSql.Proofs.Assembly
import TypedSql.Proofs.Lexer
import TypedSql.Text.Blank

/-!
# The grammar of table names

A table name is one segment or several with dots between them (`TableName.IsName`). Where a text breaks
the grammar, it does so at a position: a segment has no character there, or the character there may not
stand at the beginning or inside of one (`TableName.Violates`). The check cuts a text into segments and
looks at one after the other; reading the text once from the left finds the same fault
(`findSome?_segments`), and that is the fault of the leftmost position that has one. So a text is
accepted exactly when it is a name, and refused for its leftmost violation
(`TableName.check_follows_grammar`).
-/

namespace TypedSql.TableName

/-! ### The grammar -/

/-- A character of `[A-Za-z_]`. -/
def StartsSegment (c : Char) : Prop := ('A' ≤ c ∧ c ≤ 'Z') ∨ ('a' ≤ c ∧ c ≤ 'z') ∨ c = '_'

/-- A character of `[A-Za-z0-9_$]`. -/
def ContinuesSegment (c : Char) : Prop := StartsSegment c ∨ ('0' ≤ c ∧ c ≤ '9') ∨ c = '$'

/-- A segment: `[A-Za-z_][A-Za-z0-9_$]*`. -/
inductive IsSegment : List Char → Prop where
  | mk {first : Char} {rest : List Char} (hfirst : StartsSegment first)
      (hrest : ∀ c ∈ rest, ContinuesSegment c) : IsSegment (first :: rest)

/-- A name: one segment, or several with dots between them. -/
inductive IsName : List Char → Prop where
  | segment {cs : List Char} (h : IsSegment cs) : IsName cs
  | dotted {cs rest : List Char} (h : IsSegment cs) (hrest : IsName rest) : IsName (cs ++ '.' :: rest)

theorem isStart_iff {c : Char} : isStart c = true ↔ StartsSegment c := by
  have hupper : c.isUpper = true ↔ 'A' ≤ c ∧ c ≤ 'Z' := decide_eq_true_iff
  have hlower : c.isLower = true ↔ 'a' ≤ c ∧ c ≤ 'z' := by
    show (decide (c.val ≥ 'a'.val) && decide (c.val ≤ 'z'.val)) = true ↔ _
    rw [Bool.and_eq_true, decide_eq_true_iff, decide_eq_true_iff]
    rfl
  show (c == '_' || (c.isUpper || c.isLower)) = true ↔ _
  rw [Bool.or_eq_true, Bool.or_eq_true, beq_iff_eq, hupper, hlower, or_comm, or_assoc]
  rfl

theorem isPart_iff {c : Char} : isPart c = true ↔ ContinuesSegment c := by
  have hdigit : c.isDigit = true ↔ '0' ≤ c ∧ c ≤ '9' := by
    simp only [Char.isDigit, Bool.and_eq_true, decide_eq_true_eq]
    rfl
  rw [ContinuesSegment, ← isStart_iff, ← hdigit]
  simp only [isPart, isStart, Char.isAlphanum, Bool.or_eq_true, beq_iff_eq]
  tauto

instance : DecidablePred StartsSegment := fun _ => decidable_of_iff _ isStart_iff

instance : DecidablePred ContinuesSegment := fun _ => decidable_of_iff _ isPart_iff

theorem IsSegment.mem {cs : List Char} (h : IsSegment cs) {c : Char} (hc : c ∈ cs) :
    ContinuesSegment c := by
  obtain ⟨hfirst, hrest⟩ := h
  rcases List.mem_cons.mp hc with rfl | hc
  · exact .inl hfirst
  · exact hrest c hc

theorem IsSegment.dot_notMem {cs : List Char} (h : IsSegment cs) : '.' ∉ cs :=
  fun hdot => absurd (h.mem hdot) (by decide)

theorem IsName.mem {cs : List Char} (h : IsName cs) {c : Char} (hc : c ∈ cs) :
    c = '.' ∨ ContinuesSegment c := by
  induction h with
  | segment h => exact .inr (h.mem hc)
  | dotted h _ ih =>
    rcases List.mem_append.mp hc with hc | hc
    · exact .inr (h.mem hc)
    · rcases List.mem_cons.mp hc with rfl | hc
      · exact .inl rfl
      · exact ih hc

theorem IsName.notMem {cs : List Char} (h : IsName cs) {c : Char}
    (hc : ¬ (c = '.' ∨ ContinuesSegment c)) : c ∉ cs :=
  mt h.mem hc

/-! ### Segments -/

theorem segmentFault?_eq_none_iff {name : String} {segment : List Char} :
    segmentFault? name segment = none ↔ IsSegment segment := by
  cases segment with
  | nil => exact iff_of_false nofun nofun
  | cons first rest =>
    have hsegment : IsSegment (first :: rest) ↔
        StartsSegment first ∧ ∀ c ∈ rest, ContinuesSegment c :=
      ⟨fun ⟨hfirst, hrest⟩ => ⟨hfirst, hrest⟩, fun ⟨hfirst, hrest⟩ => ⟨hfirst, hrest⟩⟩
    rw [hsegment, segmentFault?, ← isStart_iff]
    by_cases hfirst : isStart first = true
    · simp [hfirst, isPart_iff]
    · simp [hfirst]

theorem segments_of_dot_notMem {cs : List Char} (h : '.' ∉ cs) : segments cs = [cs] := by
  induction cs with
  | nil => rfl
  | cons c cs ih =>
    rw [List.mem_cons, not_or] at h
    rw [MySql.segments_cons_of_ne (Ne.symm h.1), ih h.2, List.modifyHead_cons]

theorem segments_append_dot {cs : List Char} (h : '.' ∉ cs) (rest : List Char) :
    segments (cs ++ '.' :: rest) = cs :: segments rest := by
  induction cs with
  | nil => rw [List.nil_append, segments, if_pos rfl]
  | cons c cs ih =>
    rw [List.mem_cons, not_or] at h
    rw [List.cons_append, MySql.segments_cons_of_ne (Ne.symm h.1), ih h.2, List.modifyHead_cons]

theorem isName_intercalate {first : List Char} {others : List (List Char)}
    (h : ∀ segment ∈ first :: others, IsSegment segment) :
    IsName (['.'].intercalate (first :: others)) := by
  induction others generalizing first with
  | nil => simpa using IsName.segment (h first List.mem_cons_self)
  | cons second others ih =>
    rw [List.forall_mem_cons] at h
    rw [List.intercalate_cons_cons, List.append_assoc]
    exact .dotted h.1 (ih h.2)

/-- A text is a name when all its segments between dots are segments of the grammar. -/
theorem isName_iff {cs : List Char} : IsName cs ↔ ∀ segment ∈ segments cs, IsSegment segment := by
  constructor
  · intro h
    induction h with
    | segment h => simpa [segments_of_dot_notMem h.dot_notMem] using h
    | dotted h _ ih =>
      rw [segments_append_dot h.dot_notMem, List.forall_mem_cons]
      exact ⟨h, ih⟩
  · intro h
    obtain ⟨first, others, hsegments⟩ := List.exists_cons_of_ne_nil (MySql.segments_ne_nil cs)
    rw [← MySql.intercalate_segments cs, hsegments]
    exact isName_intercalate (hsegments ▸ h)

theorem fault?_eq_none_iff {name : String} : fault? name = none ↔ IsName name.toList := by
  rw [isName_iff, fault?]
  split
  · next hempty =>
    rw [List.isEmpty_iff.mp hempty]
    refine iff_of_false nofun fun h => ?_
    exact nomatch h [] List.mem_cons_self
  · simp only [List.findSome?_eq_none_iff, segmentFault?_eq_none_iff]

/-! ### Violations -/

/-- A segment begins behind `before`: at the beginning of a text, and behind a dot. -/
def Begins (before : List Char) : Prop := before = [] ∨ before.getLast? = some '.'

instance : DecidablePred Begins := fun before =>
  inferInstanceAs (Decidable (before = [] ∨ before.getLast? = some '.'))

/-- A segment ends in front of `after`: at the end of a text, and in front of a dot. -/
def Ends (after : List Char) : Prop := after = [] ∨ after.head? = some '.'

/-- `Violates name before after fault`: the name breaks the grammar at the position between `before`
and `after`. A segment has no character there, or begins or goes on with a wrong one. -/
inductive Violates (name : String) : List Char → List Char → NameFault → Prop where
  | emptyName (h : name = "") : Violates name [] [] .emptyName
  | emptySegment {before after : List Char} (hname : name ≠ "") (hbegins : Begins before)
      (hends : Ends after) : Violates name before after (.emptySegment name)
  | badStart {before after : List Char} {c : Char} (hbegins : Begins before) (hdot : c ≠ '.')
      (hc : ¬ StartsSegment c) : Violates name before (c :: after) (.badStart c name)
  | badCharacter {before after : List Char} {c : Char} (hinside : ¬ Begins before) (hdot : c ≠ '.')
      (hc : ¬ ContinuesSegment c) : Violates name before (c :: after) (.badCharacter c name)

/-- The violation at the leftmost position of `after` that has one, where `before` stands in front. -/
def Leftmost (name : String) (before after : List Char) (fault : NameFault) : Prop :=
  ∃ mid rest, after = mid ++ rest ∧ Violates name (before ++ mid) rest fault ∧
    ∀ mid' rest' fault', after = mid' ++ rest' → Violates name (before ++ mid') rest' fault' →
      mid.length ≤ mid'.length

theorem begins_append_singleton {before : List Char} {c : Char} :
    Begins (before ++ [c]) ↔ c = '.' := by
  simp [Begins]

variable {name : String} {before after rest : List Char} {c : Char} {fault : NameFault}

/-- Where there is a violation, the leftmost one is there. -/
theorem leftmost_of_violates (h : ∃ fault', Violates name before after fault') :
    Leftmost name before after fault ↔ Violates name before after fault := by
  obtain ⟨fault', hviolates⟩ := h
  constructor
  · rintro ⟨mid, rest, rfl, hfault, hleast⟩
    have hlength := hleast [] (mid ++ rest) fault' rfl (by rwa [List.append_nil])
    obtain rfl : mid = [] := List.length_eq_zero_iff.mp (Nat.le_zero.mp hlength)
    rwa [List.append_nil] at hfault
  · intro hfault
    exact ⟨[], after, rfl, by rwa [List.append_nil], fun _ _ _ _ _ => Nat.zero_le _⟩

/-- Where there is none, it is further right. -/
theorem leftmost_cons_iff (h : ∀ fault', ¬ Violates name before (c :: rest) fault') :
    Leftmost name before (c :: rest) fault ↔ Leftmost name (before ++ [c]) rest fault := by
  have hshift (mid : List Char) : before ++ [c] ++ mid = before ++ c :: mid := by simp
  constructor
  · rintro ⟨mid, rest', hsplit, hfault, hleast⟩
    cases mid with
    | nil =>
      rw [List.append_nil, ← List.nil_append rest', ← hsplit] at hfault
      exact absurd hfault (h _)
    | cons d mid =>
      obtain ⟨rfl, rfl⟩ := List.cons.inj hsplit
      refine ⟨mid, rest', rfl, hshift mid ▸ hfault, ?_⟩
      intro mid' rest'' fault' hsplit' hviolates
      have hlength := hleast (c :: mid') rest'' fault' (by rw [hsplit', List.cons_append])
        (hshift mid' ▸ hviolates)
      exact Nat.le_of_succ_le_succ hlength
  · rintro ⟨mid, rest', rfl, hfault, hleast⟩
    refine ⟨c :: mid, rest', rfl, hshift mid ▸ hfault, ?_⟩
    intro mid' rest'' fault' hsplit' hviolates
    cases mid' with
    | nil =>
      rw [List.append_nil, ← List.nil_append rest'', ← hsplit'] at hviolates
      exact absurd hviolates (h _)
    | cons d mid' =>
      obtain ⟨rfl, hrest⟩ := List.cons.inj hsplit'
      exact Nat.succ_le_succ (hleast mid' rest'' fault' hrest (hshift mid' ▸ hviolates))

/-! ### One pass from the left -/

/-- Reads a text from the left, at the beginning of a segment or inside of one. -/
def scanFault? (name : String) : Bool → List Char → Option NameFault
  | begins, [] => if begins then some (.emptySegment name) else none
  | begins, c :: rest =>
    if c = '.' then if begins then some (.emptySegment name) else scanFault? name true rest
    else if begins then if isStart c then scanFault? name false rest else some (.badStart c name)
    else if isPart c then scanFault? name false rest else some (.badCharacter c name)

/-- What is wrong behind the beginning of a segment. -/
def innerFault? (name : String) (cs : List Char) : Option NameFault :=
  (cs.find? fun c => !isPart c).map fun c => .badCharacter c name

theorem innerFault?_cons (cs : List Char) :
    innerFault? name (c :: cs) =
      if isPart c then innerFault? name cs else some (.badCharacter c name) := by
  cases h : isPart c <;> simp [innerFault?, h]

theorem segmentFault?_cons (cs : List Char) :
    segmentFault? name (c :: cs) =
      if isStart c then innerFault? name cs else some (.badStart c name) := by
  cases h : isStart c <;> simp [segmentFault?, innerFault?, h]

/-- One pass finds the fault of the first bad segment, and inside of a segment it finds what is wrong
with the rest of it, or else the fault of the first bad one behind it. -/
theorem scanFault?_eq (name : String) (cs : List Char) :
    scanFault? name true cs = (segments cs).findSome? (segmentFault? name) ∧
      ∀ first others, segments cs = first :: others →
        scanFault? name false cs =
          (innerFault? name first).or (others.findSome? (segmentFault? name)) := by
  induction cs with
  | nil =>
    refine ⟨rfl, ?_⟩
    intro first others h
    obtain ⟨rfl, rfl⟩ := List.cons.inj h
    rfl
  | cons c cs ih =>
    obtain ⟨first, others, hsegments⟩ := List.exists_cons_of_ne_nil (MySql.segments_ne_nil cs)
    have hinner := ih.2 first others hsegments
    by_cases hdot : c = '.'
    · rw [segments, if_pos hdot]
      constructor
      · rw [scanFault?, if_pos hdot]
        rfl
      · intro _ _ h
        obtain ⟨rfl, rfl⟩ := List.cons.inj h
        rw [scanFault?, if_pos hdot, if_neg Bool.false_ne_true, ih.1]
        rfl
    · rw [MySql.segments_cons_of_ne hdot, hsegments, List.modifyHead_cons]
      constructor
      · rw [scanFault?, if_neg hdot, if_pos rfl, hinner, List.findSome?_cons, segmentFault?_cons]
        cases isStart c with
        | false => rfl
        | true => cases innerFault? name first <;> rfl
      · intro _ _ h
        obtain ⟨rfl, rfl⟩ := List.cons.inj h
        rw [scanFault?, if_neg hdot, if_neg Bool.false_ne_true, hinner, innerFault?_cons]
        cases isPart c <;> rfl

/-- A pass stops at a violation. -/
theorem scanFault?_of_violates (hname : name ≠ "") (h : Violates name before after fault) :
    scanFault? name (decide (Begins before)) after = some fault := by
  cases h with
  | emptyName h => exact absurd h hname
  | emptySegment _ hbegins hends =>
    rcases hends with rfl | hends
    · simp [scanFault?, hbegins]
    · obtain ⟨rest, rfl⟩ := List.head?_eq_some_iff.mp hends
      simp [scanFault?, hbegins]
  | badStart hbegins hdot hc => simp [scanFault?, hbegins, hdot, isStart_iff, hc]
  | badCharacter hinside hdot hc => simp [scanFault?, hinside, hdot, isPart_iff, hc]

/-- Where there is no violation, a pass goes on. -/
theorem scanFault?_cons (hname : name ≠ "")
    (h : ∀ fault', ¬ Violates name before (c :: rest) fault') :
    scanFault? name (decide (Begins before)) (c :: rest) =
      scanFault? name (decide (Begins (before ++ [c]))) rest := by
  simp only [begins_append_singleton]
  by_cases hdot : c = '.'
  · have hinside : ¬ Begins before := fun hbegins =>
      h _ (.emptySegment hname hbegins (.inr (congrArg some hdot)))
    simp [scanFault?, hdot, hinside]
  · by_cases hbegins : Begins before
    · have hc : isStart c = true := by
        rw [isStart_iff]
        by_contra hc
        exact h _ (.badStart hbegins hdot hc)
      simp [scanFault?, hdot, hbegins, hc]
    · have hc : isPart c = true := by
        rw [isPart_iff]
        by_contra hc
        exact h _ (.badCharacter hbegins hdot hc)
      simp [scanFault?, hdot, hbegins, hc]

theorem scanFault?_nil (hname : name ≠ "") (h : ∀ fault', ¬ Violates name before [] fault') :
    scanFault? name (decide (Begins before)) [] = none := by
  have hinside : ¬ Begins before := fun hbegins => h _ (.emptySegment hname hbegins (.inl rfl))
  simp [scanFault?, hinside]

theorem scanFault?_iff_of_violates (hname : name ≠ "")
    (h : ∃ fault', Violates name before after fault') :
    scanFault? name (decide (Begins before)) after = some fault ↔
      Leftmost name before after fault := by
  rw [leftmost_of_violates h]
  refine ⟨fun hscan => ?_, scanFault?_of_violates hname⟩
  obtain ⟨fault', hfault'⟩ := h
  rw [scanFault?_of_violates hname hfault'] at hscan
  exact Option.some.inj hscan ▸ hfault'

/-- **A pass finds the leftmost violation.** -/
theorem scanFault?_eq_some_iff (hname : name ≠ "") :
    scanFault? name (decide (Begins before)) after = some fault ↔
      Leftmost name before after fault := by
  induction after generalizing before with
  | nil =>
    by_cases hviolates : ∃ fault', Violates name before [] fault'
    · exact scanFault?_iff_of_violates hname hviolates
    · rw [scanFault?_nil hname (not_exists.mp hviolates)]
      refine iff_of_false nofun ?_
      rintro ⟨mid, rest, hsplit, hfault, -⟩
      obtain ⟨rfl, rfl⟩ := List.append_eq_nil_iff.mp hsplit.symm
      exact hviolates ⟨fault, List.append_nil before ▸ hfault⟩
  | cons c rest ih =>
    by_cases hviolates : ∃ fault', Violates name before (c :: rest) fault'
    · exact scanFault?_iff_of_violates hname hviolates
    · have hnone := not_exists.mp hviolates
      rw [scanFault?_cons hname hnone, ih, leftmost_cons_iff hnone]

theorem fault?_eq_some_iff : fault? name = some fault ↔ Leftmost name [] name.toList fault := by
  by_cases hname : name = ""
  · subst hname
    have hempty : Violates "" [] [] .emptyName := .emptyName rfl
    rw [String.toList_empty, leftmost_of_violates ⟨_, hempty⟩]
    constructor
    · intro h
      exact Option.some.inj h ▸ hempty
    · intro h
      cases h with
      | emptyName => rfl
      | emptySegment hname => exact absurd rfl hname
  · have hne : name.toList.isEmpty = false := by simpa using hname
    rw [← scanFault?_eq_some_iff hname, fault?, hne, if_neg Bool.false_ne_true, ← (scanFault?_eq name _).1]
    rfl

theorem check_eq_error_iff {e : BuildError} :
    check name = .error e ↔ ∃ fault, fault? name = some fault ∧ e = .invalidIdentifier fault := by
  rw [check]
  cases fault? name with
  | none => simp
  | some fault => simp [eq_comm]

/-! ### Names in statements -/

/-- Where a text is put into a statement, it stays one word: it has no white space, no quote, no
semicolon, no back-tick and nothing that opens a comment. -/
structure OneWord (cs : List Char) : Prop where
  noBlank : ∀ c ∈ cs, Text.isBlank c = false
  noQuote : '\'' ∉ cs ∧ '"' ∉ cs
  noSemicolon : ';' ∉ cs
  noTick : '\x60' ∉ cs
  noComment : '#' ∉ cs ∧ ¬ ['-', '-'] <:+: cs ∧ ¬ ['/', '*'] <:+: cs

theorem isBlank_eq_false_of_continuesSegment {c : Char} (h : ContinuesSegment c) :
    Text.isBlank c = false := by
  have hrange {lo hi : Char} (hlo : lo ≤ c) (hhi : c ≤ hi) (hlow : 0x20 < lo.toNat)
      (hhigh : hi.toNat < 0x85) : Text.isBlank c = false := by
    have hlo : lo.toNat ≤ c.toNat := hlo
    have hhi : c.toNat ≤ hi.toNat := hhi
    simp only [Text.isBlank, Text.blankRanges, List.any_cons, List.any_nil, Bool.or_false,
      Bool.or_eq_false_iff, Bool.and_eq_false_iff, decide_eq_false_iff_not]
    omega
  rcases h with (⟨hlo, hhi⟩ | ⟨hlo, hhi⟩ | rfl) | ⟨hlo, hhi⟩ | rfl
  · exact hrange hlo hhi (by decide) (by decide)
  · exact hrange hlo hhi (by decide) (by decide)
  · decide
  · exact hrange hlo hhi (by decide) (by decide)
  · decide

theorem IsName.oneWord {cs : List Char} (h : IsName cs) : OneWord cs where
  noBlank c hc := by
    rcases h.mem hc with rfl | hc
    · decide
    · exact isBlank_eq_false_of_continuesSegment hc
  noQuote := ⟨h.notMem (by decide), h.notMem (by decide)⟩
  noSemicolon := h.notMem (by decide)
  noTick := h.notMem (by decide)
  -- the first character of an opener is enough
  noComment := ⟨h.notMem (by decide), fun hopens => h.notMem (by decide) (hopens.mem List.mem_cons_self),
    fun hopens => h.notMem (by decide) (hopens.mem List.mem_cons_self)⟩

/-- **The check follows the grammar**: a text is accepted, and given back as it is, exactly when it is a
name; otherwise it is refused for its leftmost violation. A name that is accepted stays one word in a
statement. -/
theorem check_follows_grammar (name : String) :
    (∀ name', check name = .ok name' ↔ IsName name.toList ∧ name' = name) ∧
      (∀ e, check name = .error e ↔
        ∃ fault, Leftmost name [] name.toList fault ∧ e = .invalidIdentifier fault) ∧
      ∀ name', check name = .ok name' → OneWord name'.toList := by
  have hok (name' : String) : check name = .ok name' ↔ IsName name.toList ∧ name' = name := by
    rw [check_eq_ok_iff, fault?_eq_none_iff, eq_comm (a := name)]
  refine ⟨hok, ?_, ?_⟩
  · intro e
    simp only [check_eq_error_iff, fault?_eq_some_iff]
  · intro name' h
    obtain ⟨hname, rfl⟩ := (hok name').mp h
    exact hname.oneWord

/-- A name of two segments. With an empty segment in front of one that begins with a digit, the empty
one is to blame. -/
theorem check_follows_grammar_dotted :
    IsName "db.t$".toList ∧ check "db.t$" = .ok "db.t$" ∧
      OneWord "db.t$".toList ∧
      check "db..1t" = .error (.invalidIdentifier (.emptySegment "db..1t")) ∧
      Leftmost "db..1t" [] "db..1t".toList (.emptySegment "db..1t") := by
  have hname : IsName "db.t$".toList :=
    have hdb : IsSegment "db".toList := .mk (by decide) (List.forall_mem_singleton.mpr (by decide))
    have ht : IsSegment "t$".toList := .mk (by decide) (List.forall_mem_singleton.mpr (by decide))
    .dotted hdb (.segment ht)
  obtain ⟨hok, -, hword⟩ := check_follows_grammar "db.t$"
  have haccepted := (hok _).mpr ⟨hname, rfl⟩
  have hrefused : check "db..1t" = .error (.invalidIdentifier (.emptySegment "db..1t")) := rfl
  obtain ⟨fault, hleftmost, hfault⟩ := ((check_follows_grammar "db..1t").2.1 _).mp hrefused
  cases hfault
  exact ⟨hname, haccepted, hword _ haccepted, hrefused, hleftmost⟩

end TypedSql.TableName
