import TypedSql.Geometry
import TypedSql.Proofs.ByteOrder
import TypedSql.Proofs.Numerals

/-!
# Numerals found in bytes

A numeral can be looked for in the bytes of a text, with a position that moves forward
(`numeralEnd?`). Bytes are only ever cut off at positions in bounds, and the position at the end is
where the longest numeral ends (`numeralEnd?_encode`): all characters of a numeral are ASCII, so each is
one byte, and no byte of another character is taken for one of them.
-/

namespace TypedSql

namespace Text

open String

/-! ### ASCII characters in bytes -/

/-- The bytes of the characters. -/
def encode (cs : List Char) : List UInt8 := cs.flatMap utf8EncodeChar

theorem bytes_ofList (cs : List Char) : bytes (String.ofList cs) = encode cs := by
  rw [bytes_eq_flatMap, String.toList_ofList, encode]

@[simp] theorem encode_append (cs cs' : List Char) : encode (cs ++ cs') = encode cs ++ encode cs' :=
  List.flatMap_append

/-- An ASCII character is one byte, and the first byte of any other character is not ASCII. -/
theorem utf8EncodeChar_cases (c : Char) :
    (c.toNat < 128 ∧ utf8EncodeChar c = [c.toUInt8]) ∨
      (128 ≤ c.toNat ∧ ∃ b tail, utf8EncodeChar c = b :: tail ∧ 128 ≤ b.toNat) := by
  obtain ⟨k, hk, hencode, hleast, hgreat⟩ := utf8EncodeChar_eq c
  cases k with
  | zero =>
    refine .inl ⟨hgreat, ?_⟩
    rw [hencode, Nat.pow_zero, Nat.div_one]
    rfl
  | succ k =>
    have hlead := lead_lt hk hgreat
    have hleast' : 128 ≤ least (k + 1) := least_le_least (k + 1) (by omega) 1 (by omega)
    have hmark : 192 ≤ mark (k + 1) := mark_le_mark (k + 1) (by omega) 1 (by omega)
    have hmark' : mark (k + 1 + 1) ≤ 256 := mark_le_mark 4 (by decide) (k + 1 + 1) (by omega)
    have hle : mark (k + 1) ≤ c.toNat / 64 ^ (k + 1) + mark (k + 1) := Nat.le_add_left _ _
    refine .inr ⟨by omega, _, _, hencode, ?_⟩
    rw [UInt8.toNat_ofNat_of_lt' (by change _ < 256; omega)]
    omega

/-- The characters are ASCII. -/
def Ascii (cs : List Char) : Prop := ∀ c ∈ cs, c.toNat < 128

theorem Ascii.append {cs cs' : List Char} (h : Ascii cs) (h' : Ascii cs') : Ascii (cs ++ cs') :=
  fun c hc => (List.mem_append.mp hc).elim (h c) (h' c)

theorem isDigit_eq_true_iff {c : Char} : c.isDigit = true ↔ 48 ≤ c.toNat ∧ c.toNat ≤ 57 := by
  rw [Char.isDigit, Bool.and_eq_true, decide_eq_true_eq, decide_eq_true_eq, ge_iff_le,
    UInt32.le_iff_toNat_le, UInt32.le_iff_toNat_le]
  rfl

theorem ascii_of_isDigit {ds : List Char} (h : ∀ c ∈ ds, c.isDigit = true) : Ascii ds := by
  intro c hc
  have hdigit := isDigit_eq_true_iff.mp (h c hc)
  omega

theorem length_encode {cs : List Char} (h : Ascii cs) : (encode cs).length = cs.length := by
  induction cs with
  | nil => rfl
  | cons c cs ih =>
    obtain ⟨hc, hcs⟩ := List.forall_mem_cons.mp h
    rcases utf8EncodeChar_cases c with ⟨-, hencode⟩ | ⟨hge, -⟩
    · rw [encode, List.flatMap_cons, hencode, List.singleton_append, List.length_cons, List.length_cons]
      exact congrArg (· + 1) (ih hcs)
    · omega

theorem toNat_toUInt8 {c : Char} (h : c.toNat < 128) : c.toUInt8.toNat = c.toNat := by
  change c.toNat % 256 = c.toNat
  omega

/-- Bytes begin with an ASCII character exactly when the text does. -/
theorem head?_encode_eq_iff {cs : List Char} {a : Char} (ha : a.toNat < 128) :
    (encode cs).head? = some a.toUInt8 ↔ cs.head? = some a := by
  cases cs with
  | nil => simp [encode]
  | cons c cs =>
    rw [encode, List.flatMap_cons, List.head?_cons, Option.some.injEq]
    rcases utf8EncodeChar_cases c with ⟨hc, hencode⟩ | ⟨hge, b, tail, hencode, hb⟩
    · rw [hencode, List.singleton_append, List.head?_cons, Option.some.injEq, ← UInt8.toNat_inj,
        toNat_toUInt8 hc, toNat_toUInt8 ha, Char.toNat_inj]
    · rw [hencode, List.cons_append, List.head?_cons, Option.some.injEq, ← UInt8.toNat_inj, toNat_toUInt8 ha]
      refine iff_of_false (by omega) ?_
      rintro rfl
      omega

/-! ### Looking at a position -/

/-- A byte that is a digit. -/
def isDigitByte (b : UInt8) : Bool := '0'.toUInt8 ≤ b && b ≤ '9'.toUInt8

/-- One when a sign stands at the position, zero otherwise. -/
def signWidth (bytes : List UInt8) (position : Nat) : Nat :=
  if bytes[position]? = some '+'.toUInt8 ∨ bytes[position]? = some '-'.toUInt8 then 1 else 0

/-- How many digits stand from the position on; none when the position is out of bounds. -/
def digitsFrom? (bytes : List UInt8) (position : Nat) : Option Nat :=
  if position ≤ bytes.length then some ((bytes.drop position).takeWhile isDigitByte).length else none

theorem isDigitByte_eq_true_iff {b : UInt8} : isDigitByte b = true ↔ 48 ≤ b.toNat ∧ b.toNat ≤ 57 := by
  rw [isDigitByte, Bool.and_eq_true, decide_eq_true_eq, decide_eq_true_eq, UInt8.le_iff_toNat_le,
    UInt8.le_iff_toNat_le]
  rfl

theorem length_takeWhile_isDigitByte (cs : List Char) :
    ((encode cs).takeWhile isDigitByte).length = (cs.takeWhile Char.isDigit).length := by
  induction cs with
  | nil => rfl
  | cons c cs ih =>
    rw [encode, List.flatMap_cons]
    rcases utf8EncodeChar_cases c with ⟨hc, hencode⟩ | ⟨hge, b, tail, hencode, hb⟩
    · have hdigit : isDigitByte c.toUInt8 = c.isDigit := by
        rw [Bool.eq_iff_iff, isDigitByte_eq_true_iff, isDigit_eq_true_iff, toNat_toUInt8 hc]
      rw [hencode, List.singleton_append, List.takeWhile_cons, List.takeWhile_cons, hdigit]
      split
      · exact congrArg (· + 1) ih
      · rfl
    · have hbyte : isDigitByte b = false := by
        rw [Bool.eq_false_iff, ne_eq, isDigitByte_eq_true_iff]
        omega
      have hdigit : c.isDigit = false := by
        rw [Bool.eq_false_iff, ne_eq, isDigit_eq_true_iff]
        omega
      simp [hencode, hbyte, hdigit]

variable {before cs : List Char}

theorem getElem?_encode (h : Ascii before) :
    (encode (before ++ cs))[before.length]? = (encode cs).head? := by
  rw [encode_append, List.getElem?_append_right (Nat.le_of_eq (length_encode h)), length_encode h,
    Nat.sub_self, List.head?_eq_getElem?]

theorem signWidth_encode (h : Ascii before) :
    signWidth (encode (before ++ cs)) before.length = (Decimal.splitSign cs).1.length := by
  have hplus : (encode cs).head? = some '+'.toUInt8 ↔ cs.head? = some '+' :=
    head?_encode_eq_iff (by decide)
  have hminus : (encode cs).head? = some '-'.toUInt8 ↔ cs.head? = some '-' :=
    head?_encode_eq_iff (by decide)
  simp only [signWidth, getElem?_encode h, hplus, hminus]
  fun_cases Decimal.splitSign cs with
  | case1 rest => rfl
  | case2 rest => rfl
  | case3 cs hplus hminus =>
    refine if_neg ?_
    rintro (hhead | hhead)
    · obtain ⟨tail, rfl⟩ := List.head?_eq_some_iff.mp hhead
      exact hplus tail rfl
    · obtain ⟨tail, rfl⟩ := List.head?_eq_some_iff.mp hhead
      exact hminus tail rfl

theorem digitsFrom?_encode (h : Ascii before) :
    digitsFrom? (encode (before ++ cs)) before.length = some (Decimal.splitDigits cs).1.length := by
  have hdrop : (encode (before ++ cs)).drop before.length = encode cs := by
    rw [encode_append, ← length_encode h, List.drop_left]
  rw [digitsFrom?, if_pos, hdrop, length_takeWhile_isDigitByte]
  · rfl
  · rw [encode_append, List.length_append, length_encode h]
    exact Nat.le_add_right _ _

end Text

namespace Decimal

open Text

/-! ### Looking for a numeral -/

/-- How many digits stand behind a point at the position, and where the fraction ends. The point counts
only when there are digits on one of its sides. -/
def fractionEnd? (bytes : List UInt8) (whole position : Nat) : Option (Nat × Nat) :=
  if bytes[position]? = some '.'.toUInt8 then
    (digitsFrom? bytes (position + 1)).map fun fraction =>
      (fraction, if 0 < whole ∨ 0 < fraction then position + 1 + fraction else position)
  else some (0, position)

/-- Where an exponent at the position ends: the position itself when there is none. -/
def exponentEnd? (bytes : List UInt8) (position : Nat) : Option Nat :=
  if bytes[position]? = some 'e'.toUInt8 ∨ bytes[position]? = some 'E'.toUInt8 then
    let sign := signWidth bytes (position + 1)
    (digitsFrom? bytes (position + 1 + sign)).map fun power =>
      if 0 < power then position + 1 + sign + power else position
  else some position

/-- Where the numeral at the head of the bytes ends, if there is one: the sign, the digits, the fraction
and the exponent are looked for one behind the other. None when a position is out of bounds. -/
def numeralEnd? (bytes : List UInt8) : Option (Option Nat) := do
  let sign := signWidth bytes 0
  let whole ← digitsFrom? bytes sign
  let (fraction, position) ← fractionEnd? bytes whole (sign + whole)
  if whole = 0 ∧ fraction = 0 then return none
  return some (← exponentEnd? bytes position)

theorem ascii_of_isSign {sign : List Char} (h : IsSign sign) : Ascii sign := by
  rcases h with rfl | rfl | rfl
  · exact List.forall_mem_nil _
  · exact List.forall_mem_singleton.mpr (by decide)
  · exact List.forall_mem_singleton.mpr (by decide)

variable {before cs : List Char}

theorem fractionEnd?_encode (h : Ascii before) {whole fraction rest : List Char}
    (hfraction : splitFraction whole cs = (fraction, rest)) :
    fractionEnd? (encode (before ++ cs)) whole.length before.length =
      some (fraction.length - 1, before.length + fraction.length) := by
  have hpoint : (encode cs).head? = some '.'.toUInt8 ↔ cs.head? = some '.' :=
    head?_encode_eq_iff (by decide)
  simp only [fractionEnd?, getElem?_encode h, hpoint]
  split
  · next hhead =>
    obtain ⟨tail, rfl⟩ := List.head?_eq_some_iff.mp hhead
    rcases hdigits : splitDigits tail with ⟨ds, rest'⟩
    have hbefore : Ascii (before ++ ['.']) := h.append (List.forall_mem_singleton.mpr (by decide))
    have hscan := @digitsFrom?_encode _ tail hbefore
    rw [hdigits, List.append_assoc, List.singleton_append, List.length_append] at hscan
    rw [List.length_singleton] at hscan
    rw [hscan, Option.map_some]
    by_cases hne : whole ≠ [] ∨ ds ≠ []
    · rw [splitFraction_point hdigits hne] at hfraction
      cases hfraction
      rw [if_pos (by simpa only [List.length_pos_iff] using hne)]
      simp only [List.length_cons, Nat.add_sub_cancel, Nat.add_assoc, Nat.add_comm 1]
    · obtain ⟨rfl, rfl⟩ : whole = [] ∧ ds = [] := by simpa using hne
      simp only [splitFraction, hdigits, List.isEmpty_nil, Bool.and_self, if_true] at hfraction
      cases hfraction
      simp
  · next hhead =>
    rw [splitFraction.eq_2 whole cs (by rintro tail rfl; exact hhead rfl)] at hfraction
    cases hfraction
    rfl

theorem exponentEnd?_encode (h : Ascii before) {exponent rest : List Char}
    (hexponent : splitExponent cs = (exponent, rest)) :
    exponentEnd? (encode (before ++ cs)) before.length = some (before.length + exponent.length) := by
  have hlower : (encode cs).head? = some 'e'.toUInt8 ↔ cs.head? = some 'e' :=
    head?_encode_eq_iff (by decide)
  have hupper : (encode cs).head? = some 'E'.toUInt8 ↔ cs.head? = some 'E' :=
    head?_encode_eq_iff (by decide)
  simp only [exponentEnd?, getElem?_encode h, hlower, hupper]
  cases cs with
  | nil =>
    cases hexponent
    simp
  | cons c tail =>
    simp only [List.head?_cons, Option.some.injEq]
    split
    · next hletter =>
      rcases hsign : splitSign tail with ⟨sign, afterSign⟩
      rcases hdigits : splitDigits afterSign with ⟨ds, rest'⟩
      obtain ⟨rfl, hsigns⟩ := eq_append_of_splitSign hsign
      have hletters : Ascii (before ++ [c]) :=
        h.append (List.forall_mem_singleton.mpr (by rcases hletter with rfl | rfl <;> decide))
      have hwidth := @signWidth_encode _ (sign ++ afterSign) hletters
      have hscan := @digitsFrom?_encode _ afterSign (hletters.append (ascii_of_isSign hsigns))
      rw [hsign, ← List.append_cons, List.length_append, List.length_singleton] at hwidth
      rw [hdigits, List.append_assoc, ← List.append_cons, List.length_append, List.length_append,
        List.length_singleton] at hscan
      rw [splitExponent, if_pos (by simpa using hletter)] at hexponent
      simp only [hsign, hdigits, List.isEmpty_iff] at hexponent
      rw [hwidth, hscan, Option.map_some]
      split at hexponent
      · next hempty =>
        cases hexponent
        simp [hempty]
      · next hne =>
        cases hexponent
        rw [if_pos (List.length_pos_iff.mpr hne), List.length_append, List.length_cons]
        simp only [Nat.add_assoc, Nat.add_comm 1]
    · next hletter =>
      rw [splitExponent, if_neg (by simpa using hletter)] at hexponent
      cases hexponent
      rfl

/-- What is split off as a fraction is ASCII; it has digits, unless there are digits in front of it or
there is no fraction. -/
theorem ascii_of_splitFraction {whole fraction rest : List Char}
    (h : splitFraction whole cs = (fraction, rest)) :
    cs = fraction ++ rest ∧ Ascii fraction ∧
      (whole.length = 0 ∧ fraction.length - 1 = 0 ↔ whole ++ fraction = []) := by
  rcases splitFraction_cases h with ⟨rfl, rfl⟩ | ⟨tail, ds, rfl, hdigits, rfl, hne⟩
  · exact ⟨rfl, List.forall_mem_nil _, by simp⟩
  · obtain ⟨rfl, hds, -⟩ := splitDigits_eq_iff.mp hdigits
    refine ⟨rfl, List.forall_mem_cons.mpr ⟨by decide, ascii_of_isDigit hds⟩, ?_⟩
    simp only [List.length_cons, Nat.add_sub_cancel, List.length_eq_zero_iff, List.append_eq_nil_iff,
      reduceCtorEq, and_false, iff_false, not_and]
    exact fun hwhole => hne.resolve_left fun h => h hwhole

/-- **A numeral is found in bytes**: no position is out of bounds, and the last one is as far behind the
beginning as the longest numeral has characters. -/
theorem numeralEnd?_encode (cs : List Char) :
    numeralEnd? (encode cs) = some ((leadingNumeral cs).map List.length) := by
  rcases hsign : splitSign cs with ⟨sign, afterSign⟩
  rcases hwhole : splitDigits afterSign with ⟨whole, afterWhole⟩
  rcases hfraction : splitFraction whole afterWhole with ⟨fraction, afterFraction⟩
  rcases hexponent : splitExponent afterFraction with ⟨exponent, rest⟩
  rw [leadingNumeral_eq hsign (splitSignificand_eq hwhole hfraction) hexponent]
  obtain ⟨rfl, hsigns⟩ := eq_append_of_splitSign hsign
  obtain ⟨rfl, hdigits, -⟩ := splitDigits_eq_iff.mp hwhole
  have hsignAscii := ascii_of_isSign hsigns
  have hwholeAscii := hsignAscii.append (ascii_of_isDigit hdigits)
  have hwidth := @signWidth_encode [] (sign ++ (whole ++ afterWhole)) (List.forall_mem_nil _)
  have hwholeScan := @digitsFrom?_encode _ (whole ++ afterWhole) hsignAscii
  have hfractionScan := fractionEnd?_encode hwholeAscii hfraction
  rw [hsign] at hwidth
  rw [hwhole] at hwholeScan
  rw [List.append_assoc, List.length_append] at hfractionScan
  rw [List.length_nil, List.nil_append] at hwidth
  obtain ⟨rfl, hfractionAscii, hempty⟩ := ascii_of_splitFraction hfraction
  have hexponentScan := exponentEnd?_encode (hwholeAscii.append hfractionAscii) hexponent
  rw [List.append_assoc, List.append_assoc, List.length_append, List.length_append] at hexponentScan
  simp only [numeralEnd?, hwidth, hwholeScan, hfractionScan, Option.bind_eq_bind, Option.bind_some,
    hempty]
  split
  · rfl
  · rw [hexponentScan, Option.bind_some, Option.map_some]
    simp only [List.length_append, Nat.add_assoc]
    rfl

theorem ascii_of_isNumeral {p : List Char} (h : IsNumeral p) : Ascii p := by
  obtain ⟨sign, significand, exponent, rfl, hsign, hsignificand, hexponent⟩ := h
  have hsignificands : Ascii significand := fun c hc => by
    rcases hsignificand.mem hc with hdigit | rfl
    · exact ascii_of_isDigit (List.forall_mem_singleton.mpr hdigit) c (List.mem_singleton_self c)
    · decide
  have hexponents : Ascii exponent := by
    cases hexponent with
    | none => exact List.forall_mem_nil _
    | power he hsign hds =>
      refine List.forall_mem_cons.mpr ⟨?_, (ascii_of_isSign hsign).append (ascii_of_isDigit hds.2)⟩
      rcases he with rfl | rfl <;> decide
  exact (ascii_of_isSign hsign).append (hsignificands.append hexponents)

/-- Characters that are ASCII end at a position between two characters, with as many bytes in front of
it as there are characters. -/
theorem position_of_ascii {t p : List Char} (h : Ascii p) (hstart : p <+: t) :
    (String.Pos.Raw.mk p.length).IsValid (String.ofList t) ∧
      (bytes (String.ofList t)).take p.length = bytes (String.ofList p) := by
  obtain ⟨rest, rfl⟩ := hstart
  have hlength : (bytes (String.ofList p)).length = p.length := by
    rw [bytes_ofList, length_encode h]
  constructor
  · refine String.Pos.Raw.isValid_iff_exists_append.mpr
      ⟨String.ofList p, String.ofList rest, String.ofList_append, ?_⟩
    rw [← hlength]
    rfl
  · rw [bytes_ofList, encode_append, ← bytes_ofList p, ← hlength, List.take_left]

end Decimal

/-! ### The number at the head of a text -/

namespace Geometry

open Decimal

theorem leadingNumber?_of_leadingNumeral {s : String} {p : List Char}
    (h : leadingNumeral (Text.trimStart s.toList) = some p) :
    ∃ n, Numeral.read? p = some n ∧ leadingNumber? s = some n.toFloat := by
  obtain ⟨n, hn⟩ := exists_read?_of_isNumeral (isNumeral_of_leadingNumeral h).2
  exact ⟨n, hn, by rw [leadingNumber?, h, Option.bind_some, hn, Option.map_some]⟩

/-- **The number at the head of a text is its longest numeral**, behind its leading blanks. There is no
number exactly when no numeral stands there; otherwise the longest one is read, and every numeral can
be. In the bytes of the text the numeral is found without a position out of bounds, and it is cut off
between two characters. -/
theorem leading_number_is_longest_numeral (s : String) :
    (leadingNumber? s = none ↔ ∀ p, p <+: Text.trimStart s.toList → ¬ IsNumeral p) ∧
      let t := Text.trimStart s.toList
      numeralEnd? (Text.bytes (String.ofList t)) = some ((leadingNumeral t).map List.length) ∧
      ∀ p, (leadingNumeral t = some p ↔ LongestPrefix IsNumeral t p) ∧
        (leadingNumeral t = some p →
          (∃ n, Numeral.read? p = some n ∧ leadingNumber? s = some n.toFloat) ∧
          (String.Pos.Raw.mk p.length).IsValid (String.ofList t) ∧
          (Text.bytes (String.ofList t)).take p.length = Text.bytes (String.ofList p)) := by
  refine ⟨?_, ?_, fun p => ⟨leadingNumeral_eq_some_iff, fun hp => ?_⟩⟩
  · rw [← leadingNumeral_eq_none_iff]
    constructor
    · intro hnone
      rw [Option.eq_none_iff_forall_ne_some]
      intro p hp
      obtain ⟨n, -, hn⟩ := leadingNumber?_of_leadingNumeral hp
      rw [hnone] at hn
      cases hn
    · intro hnone
      rw [leadingNumber?, hnone, Option.bind_none]
  · rw [Text.bytes_ofList, numeralEnd?_encode]
  · obtain ⟨hstart, hnumeral⟩ := isNumeral_of_leadingNumeral hp
    exact ⟨leadingNumber?_of_leadingNumeral hp,
      position_of_ascii (ascii_of_isNumeral hnumeral) hstart⟩

/-- A no-break space in front, and an exponent that lacks its digits behind the number. -/
theorem leading_number_is_longest_numeral_degrees :
    let s := "\u00a0-2.5e+\u00b0"
    let p := ['-', '2', '.', '5']
    leadingNumeral (Text.trimStart s.toList) = some p ∧
      LongestPrefix IsNumeral (Text.trimStart s.toList) p ∧
      (∃ n, Numeral.read? p = some n ∧ leadingNumber? s = some n.toFloat) ∧
      (String.Pos.Raw.mk 4).IsValid "-2.5e+\u00b0" ∧
      numeralEnd? (Text.bytes "-2.5e+\u00b0") = some (some 4) := by
  intro s p
  have hfound : leadingNumeral (Text.trimStart s.toList) = some p := by decide
  have htrimmed : String.ofList (Text.trimStart s.toList) = "-2.5e+\u00b0" := by decide
  obtain ⟨-, hend, hlongest⟩ := leading_number_is_longest_numeral s
  obtain ⟨hnumber, hvalid, -⟩ := (hlongest p).2 hfound
  rw [htrimmed, hfound] at hend
  rw [htrimmed] at hvalid
  exact ⟨hfound, (hlongest p).1.mp hfound, hnumber, hvalid, hend⟩

end Geometry

end TypedSql
