/-
This file models `utils/percent_encoding.hpp`. Both loops go through the text from left to right,
and are recursions on what is still to be read.

The decoder is not the mirror of the encoder: it turns `+` into a space, keeps a `%` that has fewer
than two characters after it, and reads the two characters after any other `%` with `strtol`, which
skips blanks, takes a sign and gives zero for what is no number. So a `%` without two hexadecimal
digits behind it is kept only at the end of a text.
-/

import Kurlyk.Utils.Characters

namespace Kurlyk.Utils

/-! ### The model -/

def hexChars : List UInt8 := ascii "0123456789ABCDEF"

/-- The characters that `percent_encode` copies. -/
def isUnescaped (chr : UInt8) : Bool :=
  isalnum chr || chr = '-'.toUInt8 || chr = '.'.toUInt8 || chr = '_'.toUInt8 || chr = '~'.toUInt8

/-- What `percent_encode` appends for one character. -/
def encodeCharacter (chr : UInt8) : List UInt8 :=
  if isUnescaped chr then [chr]
  else ['%'.toUInt8, hexChars.getD (chr >>> 4).toNat 0, hexChars.getD (chr &&& 0x0F).toNat 0]

def percentEncode (value : List UInt8) : List UInt8 :=
  value.flatMap encodeCharacter

/-- The value of a hexadecimal digit. -/
def hexValue (digit : UInt8) : Option ℕ :=
  if isdigit digit then some (digit.toNat - 48)
  else if 65 ≤ digit ∧ digit ≤ 70 then some (digit.toNat - 55)
  else if 97 ≤ digit ∧ digit ≤ 102 then some (digit.toNat - 87)
  else none

/-- The number that the longest row of hexadecimal digits stands for. -/
def hexNumber : ℕ → List UInt8 → ℕ
  | number, [] => number
  | number, digit :: rest =>
    match hexValue digit with
    | none => number
    | some value => hexNumber (16 * number + value) rest

/-- `0x` before a digit is skipped. -/
def dropHexMark : List UInt8 → List UInt8
  | zero :: mark :: digit :: rest =>
    if zero = '0'.toUInt8 ∧ tolower mark = 'x'.toUInt8 ∧ (hexValue digit).isSome then digit :: rest
    else zero :: mark :: digit :: rest
  | text => text

/-- `strtol(text, nullptr, 16)` of a C string, whose numbers are far from the bounds of `long`
here. -/
def strtolHex (text : List UInt8) : ℤ :=
  match (text.takeWhile (· ≠ 0)).dropWhile isspace with
  | [] => 0
  | sign :: rest =>
    if sign = '-'.toUInt8 then - hexNumber 0 (dropHexMark rest)
    else if sign = '+'.toUInt8 then hexNumber 0 (dropHexMark rest)
    else hexNumber 0 (dropHexMark (sign :: rest))

/-- `static_cast<char>(strtol(hex, nullptr, 16))` with the two characters in `hex`. -/
def decodedCharacter (first second : UInt8) : UInt8 :=
  (strtolHex [first, second] % 256).toNat.toUInt8

/-- What the decoder makes of a character that begins no escape. -/
def plainCharacter (chr : UInt8) : UInt8 :=
  if chr = '+'.toUInt8 then ' '.toUInt8 else chr

def percentDecode : List UInt8 → List UInt8
  | chr :: first :: second :: rest =>
    if chr = '%'.toUInt8 then decodedCharacter first second :: percentDecode rest
    else plainCharacter chr :: percentDecode (first :: second :: rest)
  | chr :: rest => plainCharacter chr :: percentDecode rest
  | [] => []

/-! ### What RFC 3986 allows -/

/-- `unreserved`: a letter, a digit, or one of `-`, `.`, `_` and `~`. -/
def unreserved : List UInt8 :=
  ascii "ABCDEFGHIJKLMNOPQRSTUVWXYZabcdefghijklmnopqrstuvwxyz0123456789-._~"

/-- A digit or an upper-case letter from `A` to `F`. -/
def upperHexDigits : List UInt8 := ascii "0123456789ABCDEF"

/-- The text is made of unreserved characters and of `%` with two upper-case digits. -/
inductive Escaped : List UInt8 → Prop where
  | nil : Escaped []
  | unreserved {chr : UInt8} {rest : List UInt8} (allowed : chr ∈ unreserved)
    (remaining : Escaped rest) : Escaped (chr :: rest)
  | octet {high low : UInt8} {rest : List UInt8} (first : high ∈ upperHexDigits)
    (second : low ∈ upperHexDigits) (remaining : Escaped rest) :
    Escaped ('%'.toUInt8 :: high :: low :: rest)

/-- The characters that separate the parts of a URL, and those that stand for a space. -/
def delimiters : List UInt8 := ascii "&=?#+ "

/-! ### One character -/

theorem unreserved_codes : unreserved.map UInt8.toNat =
    List.range' 65 26 ++ List.range' 97 26 ++ List.range' 48 10 ++ [45, 46, 95, 126] :=
  (congrArg _ (ascii_ofList _)).trans rfl

/-- The characters that are copied are the unreserved ones. -/
theorem mem_unreserved_iff (chr : UInt8) : chr ∈ unreserved ↔ isUnescaped chr = true := by
  have listed : chr ∈ unreserved ↔ chr.toNat ∈ unreserved.map UInt8.toNat := by
    rw [List.mem_map]
    refine ⟨fun member => ⟨chr, member, rfl⟩, ?_⟩
    rintro ⟨other, member, same⟩
    rwa [← UInt8.toNat_inj.mp same]
  have marks : '-'.toUInt8.toNat = 45 ∧ '.'.toUInt8.toNat = 46 ∧ '_'.toUInt8.toNat = 95 ∧
      '~'.toUInt8.toNat = 126 := ⟨rfl, rfl, rfl, rfl⟩
  rw [listed, unreserved_codes]
  simp only [isUnescaped, isalnum, isdigit, isupper, islower, Bool.or_eq_true, Bool.and_eq_true,
    decide_eq_true_iff, List.mem_append, List.mem_range'_1, List.mem_cons, List.not_mem_nil,
    or_false, ← UInt8.toNat_inj, UInt8.le_iff_toNat_le, UInt8.reduceToNat, marks]
  omega

theorem unescaped_of_hexDigit {chr : UInt8} (digit : chr ∈ upperHexDigits) :
    isUnescaped chr = true := by
  have all : upperHexDigits.all isUnescaped = true :=
    (congrArg (List.all · isUnescaped) (ascii_ofList _)).trans rfl
  exact List.all_eq_true.mp all chr digit

theorem not_mem_delimiters {chr : UInt8} (plain : chr = '%'.toUInt8 ∨ isUnescaped chr = true) :
    chr ∉ delimiters := by
  have none : delimiters.all (fun delimiter => delimiter ≠ '%'.toUInt8 ∧ !isUnescaped delimiter) =
      true := (congrArg (List.all · _) (ascii_ofList _)).trans rfl
  intro delimits
  have apart := of_decide_eq_true (List.all_eq_true.mp none chr delimits)
  rcases plain with percent | unescaped
  · exact apart.1 percent
  · exact absurd apart.2 (by simp [unescaped])

theorem hexDigits_mem (chr : UInt8) : hexChars.getD (chr >>> 4).toNat 0 ∈ upperHexDigits ∧
    hexChars.getD (chr &&& 0x0F).toNat 0 ∈ upperHexDigits := by
  have digit {index : ℕ} (small : index < 16) : hexChars.getD index 0 ∈ upperHexDigits := by
    have inside : index < hexChars.length := small
    rw [List.getD_eq_getElem?_getD, List.getElem?_eq_getElem inside]
    exact List.getElem_mem inside
  refine ⟨digit ?_, digit ?_⟩
  · have bound := chr.toNat_lt
    rw [UInt8.toNat_shiftRight, Nat.shiftRight_eq_div_pow]
    exact Nat.div_lt_of_lt_mul bound
  · rw [UInt8.toNat_and]
    exact Nat.lt_succ_of_le Nat.and_le_right

theorem decodedCharacter_hexChars : ∀ chr : UInt8,
    decodedCharacter (hexChars.getD (chr >>> 4).toNat 0) (hexChars.getD (chr &&& 0x0F).toNat 0) =
      chr := by
  rw [show hexChars = _ from ascii_ofList _]
  exact forall_byte (by decide +kernel)

theorem unescaped_plain (chr : UInt8) (unescaped : isUnescaped chr = true) :
    chr ≠ '%'.toUInt8 ∧ plainCharacter chr = chr := by
  refine ⟨?_, if_neg ?_⟩
  · rintro rfl
    exact absurd unescaped (by decide)
  · rintro rfl
    exact absurd unescaped (by decide)

/-- A character that begins no escape is decoded alone. -/
theorem percentDecode_cons_of_ne {chr : UInt8} (plain : chr ≠ '%'.toUInt8) (rest : List UInt8) :
    percentDecode (chr :: rest) = plainCharacter chr :: percentDecode rest := by
  match rest with
  | [] => rfl
  | [_] => rfl
  | first :: second :: after => rw [percentDecode, if_neg plain]

/-- The decoder reads back what the encoder writes for one character. -/
theorem percentDecode_encodeCharacter (chr : UInt8) (rest : List UInt8) :
    percentDecode (encodeCharacter chr ++ rest) = chr :: percentDecode rest := by
  unfold encodeCharacter
  split
  · rename_i unescaped
    obtain ⟨plain, same⟩ := unescaped_plain chr unescaped
    rw [List.singleton_append, percentDecode_cons_of_ne plain, same]
  · rw [List.cons_append, List.cons_append, List.cons_append, List.nil_append, percentDecode,
      if_pos rfl, decodedCharacter_hexChars]

theorem Escaped.encodeCharacter (chr : UInt8) {rest : List UInt8} (remaining : Escaped rest) :
    Escaped (encodeCharacter chr ++ rest) := by
  unfold Utils.encodeCharacter
  split
  · rename_i unescaped
    exact .unreserved ((mem_unreserved_iff chr).mpr unescaped) remaining
  · exact .octet (hexDigits_mem chr).1 (hexDigits_mem chr).2 remaining

/-- An escaped text has no delimiter. -/
theorem Escaped.not_mem_delimiters {text : List UInt8} (escaped : Escaped text) :
    ∀ chr ∈ text, chr ∉ delimiters := by
  induction escaped with
  | nil => exact fun chr member => absurd member List.not_mem_nil
  | unreserved allowed _ inductionHypothesis =>
    exact List.forall_mem_cons.mpr
      ⟨Utils.not_mem_delimiters (.inr ((mem_unreserved_iff _).mp allowed)), inductionHypothesis⟩
  | octet first second _ inductionHypothesis =>
    refine List.forall_mem_cons.mpr ⟨Utils.not_mem_delimiters (.inl rfl), ?_⟩
    refine List.forall_mem_cons.mpr ⟨Utils.not_mem_delimiters (.inr ?_), ?_⟩
    · exact unescaped_of_hexDigit first
    · exact List.forall_mem_cons.mpr
        ⟨Utils.not_mem_delimiters (.inr (unescaped_of_hexDigit second)), inductionHypothesis⟩

/-! ### Whole texts -/

/-- Decoding an encoded text and what follows it. -/
theorem percentDecode_percentEncode_append (value rest : List UInt8) :
    percentDecode (percentEncode value ++ rest) = value ++ percentDecode rest := by
  induction value with
  | nil => rfl
  | cons chr remaining inductionHypothesis =>
    rw [percentEncode, List.flatMap_cons, List.append_assoc, percentDecode_encodeCharacter]
    exact congrArg (chr :: ·) inductionHypothesis

theorem percentDecode_percentEncode (value : List UInt8) :
    percentDecode (percentEncode value) = value := by
  have decoded := percentDecode_percentEncode_append value []
  rwa [List.append_nil, percentDecode, List.append_nil] at decoded

theorem escaped_percentEncode (value : List UInt8) : Escaped (percentEncode value) := by
  induction value with
  | nil => exact .nil
  | cons chr remaining inductionHypothesis =>
    rw [percentEncode, List.flatMap_cons]
    exact inductionHypothesis.encodeCharacter chr

theorem percentEncode_injective : Function.Injective percentEncode :=
  Function.LeftInverse.injective percentDecode_percentEncode

/-- Decoding undoes encoding, and an encoded text holds nothing that could be taken for the
syntax of a URL around it. -/
theorem percent_encode_faithful :
    (∀ value, percentDecode (percentEncode value) = value) ∧
      (∀ value, Escaped (percentEncode value)) ∧ Function.Injective percentEncode ∧
      ∀ value, ∀ chr ∈ percentEncode value, chr ∉ delimiters :=
  ⟨percentDecode_percentEncode, escaped_percentEncode, percentEncode_injective,
    fun value => (escaped_percentEncode value).not_mem_delimiters⟩

/-! ### Malformed escapes -/

/-- A hexadecimal digit. -/
def isxdigit (chr : UInt8) : Bool :=
  (hexValue chr).isSome

/-- The byte that two hexadecimal digits denote. -/
def denotedByte (first second : UInt8) : UInt8 :=
  (16 * (hexValue first).getD 0 + (hexValue second).getD 0).toUInt8

/-- Decoding as a scan that takes nothing but a `%` with two hexadecimal digits for an escape. -/
def scanEscapes : List UInt8 → List UInt8
  | chr :: first :: second :: rest =>
    if chr = '%'.toUInt8 ∧ isxdigit first ∧ isxdigit second then
      denotedByte first second :: scanEscapes rest
    else plainCharacter chr :: scanEscapes (first :: second :: rest)
  | chr :: rest => plainCharacter chr :: scanEscapes rest
  | [] => []

/-- Every `%` with at least two characters behind it is followed by two hexadecimal digits. -/
def WellEscaped (value : List UInt8) : Prop :=
  ∀ front first second rest, value = front ++ '%'.toUInt8 :: first :: second :: rest →
    isxdigit first = true ∧ isxdigit second = true

theorem hexValue_le (digit : UInt8) : (hexValue digit).getD 0 ≤ 15 := by
  unfold hexValue
  split
  · rename_i decimal
    have bounds := (isdigit_iff digit).mp decimal
    change digit.toNat - 48 ≤ 15
    omega
  split
  · rename_i upper
    have bound : digit.toNat ≤ 70 := upper.2
    change digit.toNat - 55 ≤ 15
    omega
  split
  · rename_i lower
    have bound : digit.toNat ≤ 102 := lower.2
    change digit.toNat - 87 ≤ 15
    omega
  · exact Nat.zero_le _

/-- The digits stand behind the blanks and the signs. -/
theorem toNat_of_isxdigit {digit : UInt8} (isDigit : isxdigit digit = true) :
    48 ≤ digit.toNat := by
  unfold isxdigit hexValue at isDigit
  split at isDigit
  · rename_i decimal
    exact ((isdigit_iff digit).mp decimal).1
  split at isDigit
  · rename_i upper
    have bound : 65 ≤ digit.toNat := upper.1
    omega
  split at isDigit
  · rename_i lower
    have bound : 97 ≤ digit.toNat := lower.1
    omega
  · exact absurd isDigit (by decide)

/-- A digit is neither skipped nor taken for a sign. -/
theorem xdigit_plain (digit : UInt8) (isDigit : isxdigit digit = true) :
    (digit ≠ 0 ∧ isspace digit = false) ∧ digit ≠ '-'.toUInt8 ∧ digit ≠ '+'.toUInt8 ∧
      digit ≠ '%'.toUInt8 :=
  plain_of_le (toNat_of_isxdigit isDigit)

theorem hexNumber_singleton (digit : UInt8) : hexNumber 0 [digit] = (hexValue digit).getD 0 := by
  unfold hexNumber
  cases hexValue digit with
  | none => rfl
  | some value => simp [hexNumber]

/-- Two characters are a number of two digits, or of one, or of none. -/
theorem hexNumber_pair (first second : UInt8) :
    hexNumber 0 [first, second] =
      if isxdigit first ∧ isxdigit second then
        16 * (hexValue first).getD 0 + (hexValue second).getD 0
      else (hexValue first).getD 0 := by
  unfold hexNumber isxdigit
  cases hexValue first with
  | none => simp
  | some high =>
    cases found : hexValue second with
    | none => simp [hexNumber, found]
    | some low => simp [hexNumber, found]

theorem decodedCharacter_of_xdigit {first second : UInt8} (high : isxdigit first = true)
    (low : isxdigit second = true) : decodedCharacter first second = denotedByte first second := by
  obtain ⟨⟨firstSet, firstDark⟩, noMinus, noPlus, _⟩ := xdigit_plain first high
  obtain ⟨⟨secondSet, _⟩, _⟩ := xdigit_plain second low
  have number : strtolHex [first, second] =
      ((16 * (hexValue first).getD 0 + (hexValue second).getD 0 : ℕ) : ℤ) := by
    have text : ([first, second].takeWhile (· ≠ 0)).dropWhile isspace = [first, second] := by
      simp [firstSet, secondSet, firstDark]
    rw [strtolHex, text]
    simp only [noMinus, noPlus, if_false, dropHexMark, hexNumber_pair, high, low, and_self, if_true]
  have small := hexValue_le first
  have tiny := hexValue_le second
  rw [decodedCharacter, number, denotedByte]
  refine congrArg Nat.toUInt8 ?_
  omega

/-- A part of two characters that are not both digits is a number of one digit at most. -/
theorem hexNumber_le_of_malformed {first second : UInt8} {part : List UInt8}
    (malformed : ¬ (isxdigit first = true ∧ isxdigit second = true))
    (within : part.Sublist [first, second]) : hexNumber 0 (dropHexMark part) ≤ 15 := by
  match part, within with
  | [], _ => exact Nat.zero_le _
  | [digit], _ =>
    rw [dropHexMark, hexNumber_singleton]
    · exact hexValue_le digit
    · simp
  | one :: two :: rest, within =>
    have whole := within.eq_of_length_le (by simp)
    rw [whole, dropHexMark, hexNumber_pair, if_neg malformed]
    · exact hexValue_le first
    · simp

theorem strtolHex_of_malformed {first second : UInt8}
    (malformed : ¬ (isxdigit first = true ∧ isxdigit second = true)) :
    -15 ≤ strtolHex [first, second] ∧ strtolHex [first, second] ≤ 15 := by
  have within : (([first, second].takeWhile (· ≠ 0)).dropWhile isspace).Sublist [first, second] :=
    (List.dropWhile_sublist _).trans (List.takeWhile_sublist _)
  unfold strtolHex
  split
  · exact ⟨by decide, by decide⟩
  · rename_i sign rest read
    rw [read] at within
    have whole := hexNumber_le_of_malformed malformed within
    have part := hexNumber_le_of_malformed malformed ((List.sublist_cons_self _ _).trans within)
    split
    · omega
    · split
      · omega
      · omega

/-- What the decoder makes of a malformed escape is no `%`. -/
theorem decodedCharacter_ne_percent {first second : UInt8}
    (malformed : ¬ (isxdigit first = true ∧ isxdigit second = true)) :
    decodedCharacter first second ≠ '%'.toUInt8 := by
  obtain ⟨below, above⟩ := strtolHex_of_malformed malformed
  intro same
  have value := congrArg UInt8.toNat same
  have percent : '%'.toUInt8.toNat = 37 := by decide
  rw [percent, decodedCharacter, Nat.toUInt8_eq, UInt8.toNat_ofNat'] at value
  omega

/-! ### The decoder and the scan -/

theorem wellEscaped_cons {chr : UInt8} {rest : List UInt8} (plain : chr ≠ '%'.toUInt8) :
    WellEscaped (chr :: rest) ↔ WellEscaped rest := by
  constructor
  · intro escaped front first second behind split
    exact escaped (chr :: front) first second behind (by rw [split, List.cons_append])
  · intro escaped front first second behind split
    cases front with
    | nil => exact absurd (List.cons.inj split).1 plain
    | cons head tail => exact escaped tail first second behind (List.cons.inj split).2

theorem wellEscaped_of_short {value : List UInt8} (short : value.length < 3) :
    WellEscaped value := by
  intro front first second rest split
  rw [split, List.length_append, List.length_cons, List.length_cons, List.length_cons] at short
  omega

/-- A proper escape holds no further `%`. -/
theorem wellEscaped_escape {first second : UInt8} {rest : List UInt8}
    (high : isxdigit first = true) (low : isxdigit second = true) :
    WellEscaped ('%'.toUInt8 :: first :: second :: rest) ↔ WellEscaped rest := by
  have firstPlain := (xdigit_plain first high).2.2.2
  have secondPlain := (xdigit_plain second low).2.2.2
  refine Iff.trans ?_ ((wellEscaped_cons firstPlain).trans (wellEscaped_cons secondPlain))
  constructor
  · intro escaped front one two behind split
    exact escaped ('%'.toUInt8 :: front) one two behind (by rw [split, List.cons_append])
  · intro escaped front one two behind split
    cases front with
    | nil =>
      obtain ⟨-, digits⟩ := List.cons.inj split
      obtain ⟨rfl, last⟩ := List.cons.inj digits
      obtain ⟨rfl, -⟩ := List.cons.inj last
      exact ⟨high, low⟩
    | cons head tail => exact escaped tail one two behind (List.cons.inj split).2

theorem scanEscapes_cons_of_ne {chr : UInt8} (plain : chr ≠ '%'.toUInt8) (rest : List UInt8) :
    scanEscapes (chr :: rest) = plainCharacter chr :: scanEscapes rest := by
  match rest with
  | [] => rfl
  | [_] => rfl
  | first :: second :: after =>
    rw [scanEscapes, if_neg]
    exact fun escape => plain escape.1

/-- The decoder is the scan exactly on the texts in which every `%` that has two characters behind
it begins a proper escape. -/
theorem percent_decode_scans_iff (value : List UInt8) :
    percentDecode value = scanEscapes value ↔ WellEscaped value := by
  induction value using percentDecode.induct with
  | case1 first second rest inductionHypothesis =>
    by_cases digits : isxdigit first = true ∧ isxdigit second = true
    · rw [percentDecode, if_pos rfl, scanEscapes, if_pos ⟨rfl, digits⟩,
        decodedCharacter_of_xdigit digits.1 digits.2, wellEscaped_escape digits.1 digits.2,
        ← inductionHypothesis, List.cons.injEq]
      exact and_iff_right rfl
    · refine iff_of_false ?_ fun escaped => digits (escaped [] first second rest rfl)
      rw [percentDecode, if_pos rfl, scanEscapes, if_neg fun escape => digits escape.2,
        List.cons.injEq]
      exact fun same => decodedCharacter_ne_percent digits same.1
  | case2 chr first second rest plain inductionHypothesis =>
    rw [percentDecode_cons_of_ne plain, scanEscapes_cons_of_ne plain, wellEscaped_cons plain,
      ← inductionHypothesis, List.cons.injEq]
    exact and_iff_right rfl
  | case3 chr rest short inductionHypothesis =>
    match rest with
    | [] => exact iff_of_true rfl (wellEscaped_of_short (by simp))
    | [last] => exact iff_of_true rfl (wellEscaped_of_short (by simp))
    | first :: second :: behind => exact absurd rfl (short first second behind)
  | case4 => exact iff_of_true rfl (wellEscaped_of_short (by simp))

/-- Two characters that are no digits are decoded to a zero byte instead of being kept; a `%` with
fewer characters behind it is kept. -/
theorem malformed_escape_lost :
    percentDecode (ascii "%zz") = [0] ∧ scanEscapes (ascii "%zz") = ascii "%zz" ∧
      percentDecode (ascii "100%") = ascii "100%" ∧
      percentDecode (ascii "%zz") ≠ scanEscapes (ascii "%zz") := by
  rw [ascii_ofList, ascii_ofList]
  decide

end Kurlyk.Utils
