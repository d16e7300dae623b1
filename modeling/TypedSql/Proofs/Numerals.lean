import TypedSql.Decimal.Numeral

/-!
# Numerals at the head of a text

The grammar of numerals: an optional sign, digits with an optional point among them or at either end,
and an optional exponent. What a text begins with is taken part by part, and each part as far as it
goes. No shorter choice lets the parts behind it reach further: a sign is never a digit or a point, and
an exponent begins with neither. So the result is the longest prefix of the text that is a numeral
(`leadingNumeral_eq_some_iff`), and every numeral is read as a number (`exists_read?_of_isNumeral`).
-/

namespace TypedSql.Decimal

/-! ### Signs and digits -/

/-- A plus sign, a minus sign or none. -/
def IsSign (sign : List Char) : Prop :=
  sign = [] ∨ sign = ['+'] ∨ sign = ['-']

/-- One digit or more. -/
def IsDigits (ds : List Char) : Prop :=
  ds ≠ [] ∧ ∀ c ∈ ds, c.isDigit = true

/-- A list is split where a run of `p` ends. -/
theorem span_eq_iff {α : Type} {p : α → Bool} {l body rest : List α} :
    l.takeWhile p = body ∧ l.dropWhile p = rest ↔
      l = body ++ rest ∧ (∀ a ∈ body, p a = true) ∧ ∀ a, rest.head? = some a → p a = false := by
  constructor
  · rintro ⟨rfl, rfl⟩
    refine ⟨List.takeWhile_append_dropWhile.symm, ?_, fun a ha => ?_⟩
    · exact List.all_eq_true.mp List.all_takeWhile
    · have hnot := List.head?_dropWhile_not p l
      rwa [ha] at hnot
  · rintro ⟨rfl, hbody, hrest⟩
    rw [List.takeWhile_append_of_pos hbody, List.dropWhile_append_of_pos hbody]
    cases rest with
    | nil => simp
    | cons a rest => simp [hrest a rfl]

theorem splitDigits_eq_iff {cs ds rest : List Char} :
    splitDigits cs = (ds, rest) ↔
      cs = ds ++ rest ∧ (∀ c ∈ ds, c.isDigit = true) ∧
        ∀ c, rest.head? = some c → c.isDigit = false := by
  rw [splitDigits, Prod.mk.injEq, span_eq_iff]

/-- Digits that a text begins with are digits that are split off. -/
theorem prefix_of_splitDigits {cs ds rest ds' : List Char} (h : splitDigits cs = (ds, rest))
    (hstart : ds' <+: cs) (hdigits : ∀ c ∈ ds', c.isDigit = true) : ds' <+: ds := by
  obtain ⟨tail, rfl⟩ := hstart
  obtain ⟨rfl, -⟩ := Prod.mk.inj h
  rw [List.takeWhile_append_of_pos hdigits]
  exact List.prefix_append _ _

theorem eq_append_of_splitSign {cs sign rest : List Char} (h : splitSign cs = (sign, rest)) :
    cs = sign ++ rest ∧ IsSign sign := by
  unfold splitSign at h
  split at h <;> cases h <;> simp [IsSign]

/-- A sign is split off in front of a digit or a point. -/
theorem splitSign_append {sign rest : List Char} (hsign : IsSign sign)
    (hrest : ∃ c, rest.head? = some c ∧ (c.isDigit = true ∨ c = '.')) :
    splitSign (sign ++ rest) = (sign, rest) := by
  rcases hsign with rfl | rfl | rfl
  · obtain ⟨c, hc, hdigit⟩ := hrest
    obtain ⟨tail, rfl⟩ := List.head?_eq_some_iff.mp hc
    have hplus : c ≠ '+' := by
      rintro rfl
      exact absurd hdigit (by decide)
    have hminus : c ≠ '-' := by
      rintro rfl
      exact absurd hdigit (by decide)
    simp [splitSign, hplus, hminus]
  · rfl
  · rfl

/-! ### The grammar -/

/-- Digits, and a point behind them, among them or in front of them. -/
inductive IsSignificand : List Char → Prop where
  | whole {ds : List Char} (h : IsDigits ds) : IsSignificand ds
  | point {ds fraction : List Char} (h : IsDigits ds) (hfraction : ∀ c ∈ fraction, c.isDigit = true) :
      IsSignificand (ds ++ '.' :: fraction)
  | fraction {ds : List Char} (h : IsDigits ds) : IsSignificand ('.' :: ds)

/-- The letter `e` or `E`, a sign and digits, or nothing at all. -/
inductive IsExponent : List Char → Prop where
  | none : IsExponent []
  | power {e : Char} {sign ds : List Char} (he : e = 'e' ∨ e = 'E') (hsign : IsSign sign)
      (h : IsDigits ds) : IsExponent (e :: (sign ++ ds))

/-- A numeral: sign, significand and exponent. -/
def IsNumeral (cs : List Char) : Prop :=
  ∃ sign significand exponent, cs = sign ++ (significand ++ exponent) ∧ IsSign sign ∧
    IsSignificand significand ∧ IsExponent exponent

/-- The text begins with `p`, which has the property, and with no longer text that has it. -/
def LongestPrefix (P : List Char → Prop) (cs p : List Char) : Prop :=
  p <+: cs ∧ P p ∧ ∀ q, q <+: cs → P q → q.length ≤ p.length

theorem LongestPrefix.unique {P : List Char → Prop} {cs p q : List Char}
    (hp : LongestPrefix P cs p) (hq : LongestPrefix P cs q) : p = q :=
  (List.prefix_of_prefix_length_le hp.1 hq.1 (hq.2.2 p hp.1 hp.2.1)).eq_of_length
    (Nat.le_antisymm (hq.2.2 p hp.1 hp.2.1) (hp.2.2 q hq.1 hq.2.1))

theorem IsSignificand.head {cs : List Char} (h : IsSignificand cs) :
    ∃ c, cs.head? = some c ∧ (c.isDigit = true ∨ c = '.') := by
  cases h with
  | whole h | point h =>
    obtain ⟨c, ds, rfl⟩ := List.exists_cons_of_ne_nil h.1
    exact ⟨c, rfl, .inl (h.2 c List.mem_cons_self)⟩
  | fraction => exact ⟨'.', rfl, .inr rfl⟩

theorem IsSignificand.mem {cs : List Char} (h : IsSignificand cs) {c : Char} (hc : c ∈ cs) :
    c.isDigit = true ∨ c = '.' := by
  cases h with
  | whole h => exact .inl (h.2 c hc)
  | point h hfraction =>
    rcases List.mem_append.mp hc with hc | hc
    · exact .inl (h.2 c hc)
    · exact (List.mem_cons.mp hc).elim .inr fun hc => .inl (hfraction c hc)
  | fraction h => exact (List.mem_cons.mp hc).elim .inr fun hc => .inl (h.2 c hc)

/-! ### Parts of a numeral -/

/-- The digits and the fraction at the head of a text, and what follows them. -/
def splitSignificand (cs : List Char) : List Char × List Char :=
  let (whole, afterWhole) := splitDigits cs
  let (fraction, rest) := splitFraction whole afterWhole
  (whole ++ fraction, rest)

theorem splitSignificand_eq {cs whole afterWhole fraction rest : List Char}
    (hwhole : splitDigits cs = (whole, afterWhole))
    (hfraction : splitFraction whole afterWhole = (fraction, rest)) :
    splitSignificand cs = (whole ++ fraction, rest) := by
  simp only [splitSignificand, hwhole, hfraction]

theorem leadingNumeral_eq {cs sign afterSign significand afterSignificand exponent rest : List Char}
    (hsign : splitSign cs = (sign, afterSign))
    (hsignificand : splitSignificand afterSign = (significand, afterSignificand))
    (hexponent : splitExponent afterSignificand = (exponent, rest)) :
    leadingNumeral cs =
      if significand = [] then none else some (sign ++ (significand ++ exponent)) := by
  rcases hwhole : splitDigits afterSign with ⟨whole, afterWhole⟩
  rcases hfraction : splitFraction whole afterWhole with ⟨fraction, rest'⟩
  rw [splitSignificand_eq hwhole hfraction] at hsignificand
  obtain ⟨rfl, rfl⟩ := Prod.mk.inj hsignificand
  simp only [leadingNumeral, hsign, hwhole, hfraction, hexponent, Bool.and_eq_true, List.isEmpty_iff,
    List.append_eq_nil_iff, List.append_assoc]

/-- A point is split off with the digits behind it, unless there are digits on neither side. -/
theorem splitFraction_point {whole cs fraction rest : List Char}
    (hdigits : splitDigits cs = (fraction, rest)) (h : whole ≠ [] ∨ fraction ≠ []) :
    splitFraction whole ('.' :: cs) = ('.' :: fraction, rest) := by
  have hnot : (whole.isEmpty && fraction.isEmpty) = false := by
    simpa [Classical.or_iff_not_imp_left] using h
  simp [splitFraction, hdigits, hnot]

theorem splitFraction_cases {whole cs fraction rest : List Char}
    (h : splitFraction whole cs = (fraction, rest)) :
    fraction = [] ∧ rest = cs ∨
      ∃ tail ds, cs = '.' :: tail ∧ splitDigits tail = (ds, rest) ∧ fraction = '.' :: ds ∧
        (whole ≠ [] ∨ ds ≠ []) := by
  unfold splitFraction at h
  split at h
  · next tail =>
    rcases hdigits : splitDigits tail with ⟨ds, rest'⟩
    simp only [hdigits, Bool.and_eq_true, List.isEmpty_iff] at h
    split at h
    · cases h
      exact .inl ⟨rfl, rfl⟩
    · next hnot =>
      cases h
      exact .inr ⟨tail, ds, rfl, hdigits, rfl, Classical.not_and_iff_not_or_not.mp hnot⟩
  · cases h
    exact .inl ⟨rfl, rfl⟩

/-- What is split off as a significand is one, if it is anything at all. -/
theorem isSignificand_of_splitSignificand {cs significand rest : List Char}
    (h : splitSignificand cs = (significand, rest)) :
    cs = significand ++ rest ∧ (significand ≠ [] → IsSignificand significand) := by
  rcases hwhole : splitDigits cs with ⟨whole, afterWhole⟩
  rcases hfraction : splitFraction whole afterWhole with ⟨fraction, rest'⟩
  rw [splitSignificand_eq hwhole hfraction] at h
  obtain ⟨rfl, rfl⟩ := Prod.mk.inj h
  obtain ⟨rfl, hdigits, -⟩ := splitDigits_eq_iff.mp hwhole
  rcases splitFraction_cases hfraction with ⟨rfl, rfl⟩ | ⟨tail, ds, rfl, htail, rfl, hne⟩
  · rw [List.append_nil]
    exact ⟨rfl, fun hne => .whole ⟨hne, hdigits⟩⟩
  · obtain ⟨rfl, hds, -⟩ := splitDigits_eq_iff.mp htail
    refine ⟨by simp, fun _ => ?_⟩
    by_cases hempty : whole = []
    · subst hempty
      exact .fraction ⟨hne.resolve_left (fun h => h rfl), hds⟩
    · exact .point ⟨hempty, hdigits⟩ hds

/-- No significand that a text begins with is longer than the one that is split off. -/
theorem IsSignificand.prefix_of_split {cs significand rest q : List Char} (hq : IsSignificand q)
    (h : splitSignificand cs = (significand, rest)) (hstart : q <+: cs) : q <+: significand := by
  obtain ⟨tail, rfl⟩ := hstart
  cases hq with
  | whole hds =>
    rcases hwhole : splitDigits (q ++ tail) with ⟨whole, afterWhole⟩
    rcases hfraction : splitFraction whole afterWhole with ⟨fraction, rest'⟩
    rw [splitSignificand_eq hwhole hfraction] at h
    obtain ⟨rfl, -⟩ := Prod.mk.inj h
    exact (prefix_of_splitDigits hwhole (List.prefix_append _ _) hds.2).trans (List.prefix_append _ _)
  | @point ds fraction hds hfraction =>
    rcases hdigits : splitDigits (fraction ++ tail) with ⟨found, rest'⟩
    have hwhole : splitDigits (ds ++ '.' :: fraction ++ tail) = (ds, '.' :: (fraction ++ tail)) :=
      splitDigits_eq_iff.mpr ⟨by simp, hds.2, by rintro c ⟨⟩; decide⟩
    rw [splitSignificand_eq hwhole (splitFraction_point hdigits (.inl hds.1))] at h
    obtain ⟨rfl, -⟩ := Prod.mk.inj h
    have hfound := prefix_of_splitDigits hdigits (List.prefix_append _ _) hfraction
    exact (List.prefix_append_right_inj _).mpr (List.cons_prefix_cons.mpr ⟨rfl, hfound⟩)
  | @fraction ds hds =>
    rcases hdigits : splitDigits (ds ++ tail) with ⟨found, rest'⟩
    have hfound := prefix_of_splitDigits hdigits (List.prefix_append _ _) hds.2
    have hne : found ≠ [] := by
      rintro rfl
      exact hds.1 (List.prefix_nil.mp hfound)
    have hwhole : splitDigits ('.' :: ds ++ tail) = ([], '.' :: (ds ++ tail)) :=
      splitDigits_eq_iff.mpr ⟨rfl, List.forall_mem_nil _, by rintro c ⟨⟩; decide⟩
    rw [splitSignificand_eq hwhole (splitFraction_point hdigits (.inr hne))] at h
    obtain ⟨rfl, -⟩ := Prod.mk.inj h
    exact List.cons_prefix_cons.mpr ⟨rfl, hfound⟩

theorem isExponent_of_splitExponent {cs exponent rest : List Char}
    (h : splitExponent cs = (exponent, rest)) : cs = exponent ++ rest ∧ IsExponent exponent := by
  unfold splitExponent at h
  split at h
  · cases h
    exact ⟨rfl, .none⟩
  · next e tail =>
    split at h
    · next he =>
      rcases hsign : splitSign tail with ⟨sign, afterSign⟩
      rcases hdigits : splitDigits afterSign with ⟨ds, rest'⟩
      simp only [hsign, hdigits, List.isEmpty_iff] at h
      split at h
      · cases h
        exact ⟨rfl, .none⟩
      · next hne =>
        cases h
        obtain ⟨rfl, hsigns⟩ := eq_append_of_splitSign hsign
        obtain ⟨rfl, hds, -⟩ := splitDigits_eq_iff.mp hdigits
        exact ⟨by simp, .power (by simpa using he) hsigns ⟨hne, hds⟩⟩
    · cases h
      exact ⟨rfl, .none⟩

/-- No exponent that a text begins with is longer than the one that is split off. -/
theorem IsExponent.prefix_of_split {cs exponent rest q : List Char} (hq : IsExponent q)
    (h : splitExponent cs = (exponent, rest)) (hstart : q <+: cs) : q <+: exponent := by
  obtain ⟨tail, rfl⟩ := hstart
  cases hq with
  | none => exact List.nil_prefix
  | @power e sign ds he hsign hds =>
    rcases hdigits : splitDigits (ds ++ tail) with ⟨found, rest'⟩
    have hfound := prefix_of_splitDigits hdigits (List.prefix_append _ _) hds.2
    have hne : found ≠ [] := by
      rintro rfl
      exact hds.1 (List.prefix_nil.mp hfound)
    have hsplit : splitSign (sign ++ (ds ++ tail)) = (sign, ds ++ tail) := by
      obtain ⟨c, ds, rfl⟩ := List.exists_cons_of_ne_nil hds.1
      exact splitSign_append hsign ⟨c, rfl, .inl (hds.2 c List.mem_cons_self)⟩
    have hletter : (e = 'e' || e = 'E') = true := by simpa using he
    simp only [List.cons_append, List.append_assoc, splitExponent, hletter, if_true, hsplit, hdigits,
      List.isEmpty_iff, hne, if_false] at h
    obtain ⟨rfl, -⟩ := Prod.mk.inj h
    exact List.cons_prefix_cons.mpr ⟨rfl, (List.prefix_append_right_inj _).mpr hfound⟩

/-! ### The longest numeral -/

theorem isNumeral_of_leadingNumeral {cs p : List Char} (h : leadingNumeral cs = some p) :
    p <+: cs ∧ IsNumeral p := by
  rcases hsign : splitSign cs with ⟨sign, afterSign⟩
  rcases hsignificand : splitSignificand afterSign with ⟨significand, afterSignificand⟩
  rcases hexponent : splitExponent afterSignificand with ⟨exponent, rest⟩
  rw [leadingNumeral_eq hsign hsignificand hexponent] at h
  obtain ⟨rfl, hsigns⟩ := eq_append_of_splitSign hsign
  obtain ⟨rfl, hsignificands⟩ := isSignificand_of_splitSignificand hsignificand
  obtain ⟨rfl, hexponents⟩ := isExponent_of_splitExponent hexponent
  split at h
  · cases h
  · next hne =>
    cases h
    exact ⟨⟨rest, by simp⟩, sign, significand, exponent, rfl, hsigns, hsignificands hne, hexponents⟩

/-- A numeral that a text begins with is part of the one that is found. -/
theorem IsNumeral.exists_leadingNumeral {cs q : List Char} (hq : IsNumeral q) (hstart : q <+: cs) :
    ∃ p, leadingNumeral cs = some p ∧ q <+: p := by
  obtain ⟨sign, significand', exponent', rfl, hsigns, hsignificands, hexponents⟩ := hq
  obtain ⟨tail, rfl⟩ := hstart
  have hsign : splitSign (sign ++ (significand' ++ exponent') ++ tail) =
      (sign, significand' ++ (exponent' ++ tail)) := by
    rw [List.append_assoc, List.append_assoc]
    refine splitSign_append hsigns ?_
    obtain ⟨c, hc, hclass⟩ := hsignificands.head
    exact ⟨c, by rw [List.head?_append, hc, Option.some_or], hclass⟩
  rcases hsignificand : splitSignificand (significand' ++ (exponent' ++ tail)) with ⟨significand, rest⟩
  rcases hexponent : splitExponent rest with ⟨exponent, rest'⟩
  obtain ⟨more, rfl⟩ := hsignificands.prefix_of_split hsignificand (List.prefix_append _ _)
  obtain ⟨hsplit, hlonger⟩ := isSignificand_of_splitSignificand hsignificand
  rw [List.append_assoc, List.append_cancel_left_eq] at hsplit
  have hne : significand' ++ more ≠ [] := by
    obtain ⟨c, hc, -⟩ := hsignificands.head
    rintro hnil
    rw [(List.append_eq_nil_iff.mp hnil).1] at hc
    cases hc
  refine ⟨_, (leadingNumeral_eq hsign hsignificand hexponent).trans (if_neg hne), ?_⟩
  rw [List.prefix_append_right_inj, List.append_assoc, List.prefix_append_right_inj]
  -- an exponent does not begin where the significand goes on
  cases more with
  | nil => exact hexponents.prefix_of_split hexponent ⟨tail, hsplit⟩
  | cons c more =>
    cases hexponents with
    | none => exact List.nil_prefix
    | power he =>
      obtain ⟨rfl, -⟩ := List.cons.inj hsplit
      have hclass := (hlonger hne).mem (List.mem_append_right _ List.mem_cons_self)
      rcases he with rfl | rfl
      · exact absurd hclass (by decide)
      · exact absurd hclass (by decide)

/-- **The longest numeral is found**: the result is the longest prefix of the text that is a numeral. -/
theorem leadingNumeral_eq_some_iff {cs p : List Char} :
    leadingNumeral cs = some p ↔ LongestPrefix IsNumeral cs p := by
  have hlongest {p : List Char} (h : leadingNumeral cs = some p) : LongestPrefix IsNumeral cs p := by
    obtain ⟨hstart, hp⟩ := isNumeral_of_leadingNumeral h
    refine ⟨hstart, hp, fun q hqcs hq => ?_⟩
    obtain ⟨p', hp', hqp⟩ := hq.exists_leadingNumeral hqcs
    obtain rfl : p = p' := Option.some.inj (h.symm.trans hp')
    exact hqp.length_le
  refine ⟨hlongest, fun h => ?_⟩
  obtain ⟨p', hp', -⟩ := h.2.1.exists_leadingNumeral h.1
  rw [hp', (hlongest hp').unique h]

theorem leadingNumeral_eq_none_iff {cs : List Char} :
    leadingNumeral cs = none ↔ ∀ p, p <+: cs → ¬ IsNumeral p := by
  constructor
  · intro h p hstart hp
    obtain ⟨p', hp', -⟩ := hp.exists_leadingNumeral hstart
    rw [h] at hp'
    cases hp'
  · intro h
    rw [Option.eq_none_iff_forall_ne_some]
    intro p hp
    obtain ⟨hstart, hnumeral⟩ := isNumeral_of_leadingNumeral hp
    exact h p hstart hnumeral

/-! ### Reading -/

theorem exists_exponentValue?_of_isExponent {exponent : List Char} (h : IsExponent exponent) :
    ∃ power, exponentValue? exponent = some power := by
  cases h with
  | none => exact ⟨0, rfl⟩
  | @power e sign ds he hsign hds =>
    have hsplit : splitSign (sign ++ ds) = (sign, ds) := by
      obtain ⟨c, ds, rfl⟩ := List.exists_cons_of_ne_nil hds.1
      exact splitSign_append hsign ⟨c, rfl, .inl (hds.2 c List.mem_cons_self)⟩
    have hdigits : splitDigits ds = (ds, []) :=
      splitDigits_eq_iff.mpr ⟨(List.append_nil ds).symm, hds.2, nofun⟩
    have hletter : (e = 'e' || e = 'E') = true := by simpa using he
    rw [exponentValue?, if_pos hletter, signedInteger?, hsplit]
    simp [hdigits, hds.1]

/-- A text with a significand behind its sign is read when an exponent is all that follows. -/
theorem isSome_read? {cs sign afterSign significand rest : List Char}
    (hsign : splitSign cs = (sign, afterSign))
    (hsignificand : splitSignificand afterSign = (significand, rest)) (hne : significand ≠ []) :
    (Numeral.read? cs).isSome = (exponentValue? rest).isSome := by
  rcases hwhole : splitDigits afterSign with ⟨whole, afterWhole⟩
  rcases hfraction : splitFraction whole afterWhole with ⟨fraction, rest'⟩
  rw [splitSignificand_eq hwhole hfraction] at hsignificand
  obtain ⟨rfl, rfl⟩ := Prod.mk.inj hsignificand
  have hnot : (whole.isEmpty && fraction.isEmpty) = false := by
    simpa [Classical.or_iff_not_imp_left] using hne
  simp only [Numeral.read?, hsign, hwhole, hfraction, hnot, Bool.false_eq_true, if_false,
    Option.isSome_map]

/-- **Every numeral is read as a number.** -/
theorem exists_read?_of_isNumeral {p : List Char} (h : IsNumeral p) :
    ∃ n, Numeral.read? p = some n := by
  obtain ⟨p', hp, hstart⟩ := h.exists_leadingNumeral List.prefix_rfl
  obtain rfl : p = p' := hstart.eq_of_length_le (isNumeral_of_leadingNumeral hp).1.length_le
  rcases hsign : splitSign p with ⟨sign, afterSign⟩
  rcases hsignificand : splitSignificand afterSign with ⟨significand, afterSignificand⟩
  rcases hexponent : splitExponent afterSignificand with ⟨exponent, rest⟩
  rw [leadingNumeral_eq hsign hsignificand hexponent] at hp
  split at hp
  · cases hp
  · next hne =>
    -- nothing is left behind the exponent, because the numeral is all of the text
    have hall := Option.some.inj hp
    rw [(eq_append_of_splitSign hsign).1, (isSignificand_of_splitSignificand hsignificand).1,
      List.append_cancel_left_eq, List.append_cancel_left_eq] at hall
    obtain ⟨power, hpower⟩ :=
      exists_exponentValue?_of_isExponent (isExponent_of_splitExponent hexponent).2
    have hsome := isSome_read? hsign hsignificand hne
    rw [← hall, hpower] at hsome
    exact Option.isSome_iff_exists.mp hsome

end TypedSql.Decimal
