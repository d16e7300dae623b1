import TypedSql.Proofs.ByteScan
import TypedSql.Proofs.Paging

/-!
# Integers at the head of a text

Under the lenient policy a text stands for the integer that it begins with. The integer can be looked for
in the bytes of the text and taken digit by digit in 64 bits (`Page.scanInt64?`). The text is only ever
cut between two characters, and the number is the exact one (`Page.scanInt64?_eq`): a number that leaves
the range once stays out of it, because further digits only lead away from zero.
-/

namespace TypedSql

namespace Text

/-! ### Cutting at a position -/

/-- The text in front of a position in its bytes, and the text behind it. None when the position is out
of bounds or inside a character. -/
def cutAt? (s : String) (position : Nat) : Option (String × String) :=
  if h : (String.Pos.Raw.mk position).IsValid s then
    some ((s.sliceTo (s.pos _ h)).copy, (s.sliceFrom (s.pos _ h)).copy)
  else none

/-- A text is cut exactly where it falls into two texts. -/
theorem cutAt?_eq_some_iff {s t u : String} {position : Nat} :
    cutAt? s position = some (t, u) ↔ s = t ++ u ∧ position = t.utf8ByteSize := by
  unfold cutAt?
  constructor
  · intro h
    split at h
    · next hvalid =>
      have hsplits := (s.pos _ hvalid).splits
      cases h
      exact ⟨hsplits.eq_append, congrArg String.Pos.Raw.byteIdx hsplits.offset_eq_rawEndPos⟩
    · cases h
  · rintro ⟨rfl, rfl⟩
    have hvalid : (String.Pos.Raw.mk t.utf8ByteSize).IsValid (t ++ u) :=
      String.Pos.Raw.isValid_iff_exists_append.mpr ⟨t, u, rfl, rfl⟩
    have hsplits : (String.pos (t ++ u) _ hvalid).Splits t u := ⟨rfl, rfl⟩
    rw [dif_pos hvalid, (String.Pos.splits _).eq_left hsplits, (String.Pos.splits _).eq_right hsplits]

/-- Behind ASCII characters a text is cut at the position that counts them. -/
theorem cutAt?_ofList {p : List Char} (h : Ascii p) (rest : List Char) :
    cutAt? (String.ofList (p ++ rest)) p.length = some (String.ofList p, String.ofList rest) := by
  refine cutAt?_eq_some_iff.mpr ⟨String.ofList_append, ?_⟩
  rw [← length_encode h, ← bytes_ofList]
  rfl

end Text

namespace Decimal

/-! ### Digit by digit in 64 bits -/

/-- The number with its sign. -/
def signed (negative : Bool) (magnitude : Nat) : Int :=
  if negative then -(magnitude : Int) else magnitude

theorem ten_mul_signed (negative : Bool) (m : Nat) :
    10 * signed negative m = signed negative (10 * m) := by
  cases negative <;> simp [signed]

/-- A number fits when a greater one with the same sign does. -/
theorem fitsInt64_signed_of_le {negative : Bool} {m k : Nat} (hle : m ≤ k)
    (h : FitsInt64 (signed negative k)) : FitsInt64 (signed negative m) := by
  rw [fitsInt64_iff] at h ⊢
  cases negative with
  | false =>
    simp only [signed, Bool.false_eq_true, if_false] at h ⊢
    omega
  | true =>
    simp only [signed, if_true] at h ⊢
    omega

theorem exists_int64?_of_fits {n : Int} (h : FitsInt64 n) : ∃ m, int64? n = some m ∧ m.toInt = n :=
  ⟨_, if_pos h, toInt_ofInt_of_fitsInt64 h⟩

/-- A number of 64 bits with one more digit behind it, away from zero. None when one of the two steps
leaves the range: the shift by one place, or the digit. -/
def pushDigit? (negative : Bool) (n : Int64) (c : Char) : Option Int64 :=
  if c.isDigit then
    (int64? (10 * n.toInt)).bind fun shifted =>
      let digit : Int := (c.toNat - '0'.toNat : Nat)
      int64? (if negative then shifted.toInt - digit else shifted.toInt + digit)
  else none

/-- The integer that a text is as a whole, a sign or none and digits, taken digit by digit. -/
def wholeInt64? (s : String) : Option Int64 :=
  let (sign, ds) := splitSign s.toList
  if ds = [] then none else ds.foldlM (pushDigit? (sign = ['-'])) 0

/-- **The step**: a digit is put behind a number exactly when the result is in range. -/
theorem bind_pushDigit? {c : Char} (hc : c.isDigit = true) (negative : Bool) (m : Nat) :
    (int64? (signed negative m)).bind (pushDigit? negative · c) =
      int64? (signed negative (10 * m + (c.toNat - '0'.toNat))) := by
  by_cases hfits : FitsInt64 (signed negative (10 * m))
  · obtain ⟨n, hn, hm⟩ := exists_int64?_of_fits (fitsInt64_signed_of_le (by omega : m ≤ 10 * m) hfits)
    obtain ⟨shifted, hshift, hten⟩ := exists_int64?_of_fits hfits
    rw [hn, Option.bind_some, pushDigit?, if_pos hc, hm, ten_mul_signed, hshift, Option.bind_some, hten]
    refine congrArg int64? ?_
    cases negative with
    | false => simp only [signed, Bool.false_eq_true, if_false, Int.natCast_add]
    | true => simp only [signed, if_true, Int.natCast_add]; omega
  · -- the shift already leaves the range, and the digit leads farther away from it
    have hnot : ¬ FitsInt64 (signed negative (10 * m + (c.toNat - '0'.toNat))) :=
      mt (fitsInt64_signed_of_le (Nat.le_add_right _ _)) hfits
    rw [int64?.eq_def (signed negative (10 * m + _)), if_neg hnot, Option.bind_eq_none_iff]
    intro n hn
    rw [pushDigit?, if_pos hc, toInt_of_int64?_eq_some hn, ten_mul_signed, int64?, if_neg hfits,
      Option.bind_none]

theorem ofDigits_concat (ds : List Char) (c : Char) :
    ofDigits (ds ++ [c]) = 10 * ofDigits ds + (c.toNat - '0'.toNat) := by
  rw [ofDigits, Nat.ofDigitChars_append, Nat.ofDigitChars_cons, Nat.ofDigitChars_nil, ofDigits]

/-- **The run**: digits are taken one by one to the number that they stand for, if it is in range. -/
theorem foldlM_pushDigit? {ds : List Char} (h : ∀ c ∈ ds, c.isDigit = true) (negative : Bool) :
    ds.foldlM (pushDigit? negative) 0 = int64? (signed negative (ofDigits ds)) := by
  induction ds using List.reverseRecOn with
  | nil => cases negative <;> rfl
  | append_singleton ds c ih =>
    obtain ⟨hds, hc⟩ := List.forall_mem_append.mp h
    rw [List.foldlM_append, ih hds, ofDigits_concat]
    simp only [List.foldlM_cons, List.foldlM_nil, bind_pure]
    exact bind_pushDigit? (hc c (List.mem_singleton_self c)) negative (ofDigits ds)

theorem wholeInt64?_ofList {sign ds : List Char} (hsign : IsSign sign) (hds : IsDigits ds) :
    wholeInt64? (String.ofList (sign ++ ds)) =
      int64? (if sign = ['-'] then -(ofDigits ds : Int) else ofDigits ds) := by
  have hsplit : splitSign (sign ++ ds) = (sign, ds) := by
    obtain ⟨c, tail, rfl⟩ := List.exists_cons_of_ne_nil hds.1
    exact splitSign_append hsign ⟨c, rfl, .inl (hds.2 c List.mem_cons_self)⟩
  simp only [wholeInt64?, String.toList_ofList, hsplit, if_neg hds.1, foldlM_pushDigit? hds.2, signed,
    decide_eq_true_eq]

end Decimal

namespace Page

open Decimal

/-! ### Looking for the integer -/

/-- The integer at the head of a text, looked for in its bytes: a sign and digits are measured behind the
blanks, and the text in front of their end is taken as a whole. None when the text is cut out of bounds
or inside a character. -/
def scanInt64? (s : String) : Option (Option Int64) := do
  let trimmed := String.ofList (Text.trimStart s.toList)
  let sign := Text.signWidth (Text.bytes trimmed) 0
  let (_, unsigned) ← Text.cutAt? trimmed sign
  let digits := ((Text.bytes unsigned).takeWhile Text.isDigitByte).length
  if digits = 0 then return none
  let (numeral, _) ← Text.cutAt? trimmed (sign + digits)
  return wholeInt64? numeral

/-- **The integer at the head of a text is found in its bytes**, and is the exact one. -/
theorem scanInt64?_eq (s : String) : scanInt64? s = some (leadingInt64? s) := by
  rcases hsign : splitSign (Text.trimStart s.toList) with ⟨sign, afterSign⟩
  rcases hdigits : splitDigits afterSign with ⟨ds, rest⟩
  obtain ⟨htrim, hsigns⟩ := eq_append_of_splitSign hsign
  obtain ⟨rfl, hds, -⟩ := splitDigits_eq_iff.mp hdigits
  have hsignAscii := ascii_of_isSign hsigns
  have hwidth := @Text.signWidth_encode [] (Text.trimStart s.toList) (List.forall_mem_nil _)
  have hcutSign := Text.cutAt?_ofList hsignAscii (ds ++ rest)
  have hcount : ((Text.encode (ds ++ rest)).takeWhile Text.isDigitByte).length = ds.length := by
    rw [Text.length_takeWhile_isDigitByte]
    exact congrArg (fun split => split.1.length) hdigits
  have hcutDigits := Text.cutAt?_ofList (hsignAscii.append (Text.ascii_of_isDigit hds)) rest
  rw [List.nil_append, List.length_nil, hsign, htrim] at hwidth
  rw [List.append_assoc, List.length_append] at hcutDigits
  rw [leadingInt64?_eq hsign hdigits]
  simp only [scanInt64?, htrim, Text.bytes_ofList, hwidth, hcutSign, hcutDigits, Option.bind_eq_bind,
    Option.bind_some, hcount]
  split
  · next hnone =>
    rw [if_pos (List.length_eq_zero_iff.mp hnone)]
    rfl
  · next hsome =>
    have hne : ds ≠ [] := mt List.length_eq_zero_iff.mpr hsome
    rw [if_neg hne, wholeInt64?_ofList hsigns ⟨hne, hds⟩]
    rfl

/-! ### The integer that is read -/

/-- **The integer at the head of a text is read exactly.** A number is read from a text exactly when the
text begins with an integer in the range of 64 bits behind its blanks, and it is this integer. Nothing is
read where there is no integer, or where it is out of range. What follows the digits plays no part. In the
bytes of the text and with arithmetic in 64 bits the same is found, and no cut is out of bounds or inside
a character. -/
theorem lenient_text_exact (s : String) :
    (∀ n : Int64, lenientInt? (.text s) = some n ↔
        ∃ i, LeadingInteger s.toList i ∧ -2 ^ 63 ≤ i ∧ i ≤ 2 ^ 63 - 1 ∧ n.toInt = i) ∧
      (lenientInt? (.text s) = none ↔
        ∀ i, LeadingInteger s.toList i → i < -2 ^ 63 ∨ 2 ^ 63 - 1 < i) ∧
      (∀ sign ds rest : List Char, Text.trimStart s.toList = sign ++ (ds ++ rest) → IsSign sign →
        IsDigits ds → (∀ c, rest.head? = some c → c.isDigit = false) →
        lenientInt? (.text s) = lenientInt? (.text (String.ofList (sign ++ ds)))) ∧
      scanInt64? s = some (lenientInt? (.text s)) := by
  have hread (n : Int64) : lenientInt? (.text s) = some n ↔
      ∃ i, LeadingInteger s.toList i ∧ -2 ^ 63 ≤ i ∧ i ≤ 2 ^ 63 - 1 ∧ n.toInt = i := by
    rw [lenientInt?, leadingInt64?_eq_some_iff]
    constructor
    · intro h
      obtain ⟨hlow, hhigh⟩ := fitsInt64_iff.mp ⟨n.minValue_le_toInt, n.toInt_le⟩
      exact ⟨n.toInt, h, by omega, by omega, rfl⟩
    · rintro ⟨i, h, -, -, rfl⟩
      exact h
  refine ⟨hread, ?_, fun sign ds rest htrim hsign hds hrest => ?_, scanInt64?_eq s⟩
  · rw [Option.eq_none_iff_forall_ne_some]
    constructor
    · intro hnone i hi
      by_contra hrange
      obtain ⟨n, -, hn⟩ := exists_int64?_of_fits (n := i) (fitsInt64_iff.mpr (by omega))
      exact hnone n ((hread n).mpr ⟨i, hi, by omega, by omega, hn⟩)
    · intro hall n hn
      obtain ⟨i, hi, hlow, hhigh, -⟩ := (hread n).mp hn
      have hrange := hall i hi
      omega
  · have hcs : (String.ofList (sign ++ ds)).toList = [] ++ (sign ++ (ds ++ [])) := by simp
    have halone := trimStart_eq hcs (List.forall_mem_nil _) hsign hds
    rw [lenientInt?, lenientInt?, leadingInt64?_of_trimStart htrim hsign hds hrest,
      leadingInt64?_of_trimStart halone hsign hds (by simp)]

/-- The least number, behind a wide blank and with zeros in front and a letter of two bytes behind it; and
a number that is one too great. -/
theorem lenient_text_exact_ends :
    let s := "\u2003-0009223372036854775808\u00e9"
    let t := "+9223372036854775808px"
    lenientInt? (.text s) = some Int64.minValue ∧
      lenientInt? (.text s) = lenientInt? (.text "-0009223372036854775808") ∧
      scanInt64? s = some (some Int64.minValue) ∧
      (∀ i, LeadingInteger t.toList i → i < -2 ^ 63 ∨ 2 ^ 63 - 1 < i) ∧
      scanInt64? t = some none := by
  intro s t
  obtain ⟨hread, -, hrest, hscan⟩ := lenient_text_exact s
  obtain ⟨-, hnone, -, hscan'⟩ := lenient_text_exact t
  have hdigits : IsDigits "0009223372036854775808".toList :=
    ⟨by decide, List.all_eq_true.mp (by decide)⟩
  have htail (c : Char) (hc : ['\u00e9'].head? = some c) : c.isDigit = false := by
    cases hc
    decide
  have hinteger : LeadingInteger s.toList (-2 ^ 63) :=
    ⟨['\u2003'], ['-'], "0009223372036854775808".toList, ['\u00e9'], by decide,
      List.forall_mem_singleton.mpr (by decide), .inr (.inr rfl), hdigits.1, hdigits.2, htail, by decide⟩
  have hleast : lenientInt? (.text s) = some Int64.minValue :=
    (hread _).mpr ⟨-2 ^ 63, hinteger, by decide, by decide, by decide⟩
  have hgreat : lenientInt? (.text t) = none := by decide
  refine ⟨hleast, ?_, ?_, hnone.mp hgreat, ?_⟩
  · exact hrest ['-'] _ ['\u00e9'] (by decide) (.inr (.inr rfl)) hdigits htail
  · rw [hscan, hleast]
  · rw [hscan', hgreat]

end Page

end TypedSql
