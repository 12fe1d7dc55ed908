/-
This file fixes what a character is. Strings of the source are lists of bytes, and the functions
of `ctype.h` are those of the C locale, in which no byte above 127 is a letter.
-/

import Mathlib.Data.Nat.Notation
import Mathlib.Data.Int.Notation

namespace Kurlyk.Utils

/-- The bytes of an ASCII literal. -/
def ascii (text : String) : List UInt8 :=
  text.toList.map fun character => character.toNat.toUInt8

def isdigit (character : UInt8) : Bool :=
  48 ≤ character && character ≤ 57

def isupper (character : UInt8) : Bool :=
  65 ≤ character && character ≤ 90

def islower (character : UInt8) : Bool :=
  97 ≤ character && character ≤ 122

def isalpha (character : UInt8) : Bool :=
  isupper character || islower character

def isalnum (character : UInt8) : Bool :=
  isdigit character || isupper character || islower character

def isspace (character : UInt8) : Bool :=
  character = 32 || 9 ≤ character && character ≤ 13

def tolower (character : UInt8) : UInt8 :=
  if isupper character then character + 32 else character

/-- `case_insensitive_equal`. -/
def caseInsensitiveEqual (str1 str2 : List UInt8) : Bool :=
  str1.length = str2.length && (str1.zip str2).all fun (a, b) => tolower a = tolower b

/-- The bytes of a literal are read off its characters. -/
theorem ascii_ofList (characters : List Char) :
    ascii (String.ofList characters) = characters.map fun character => character.toNat.toUInt8 := by
  rw [ascii, String.toList_ofList]

theorem isdigit_iff (character : UInt8) :
    isdigit character = true ↔ 48 ≤ character.toNat ∧ character.toNat ≤ 57 := by
  rw [isdigit, Bool.and_eq_true, decide_eq_true_iff, decide_eq_true_iff]
  exact Iff.rfl

theorem toNat_le_of_isspace {character : UInt8} (blank : isspace character = true) :
    9 ≤ character.toNat ∧ character.toNat ≤ 32 := by
  rw [isspace, Bool.or_eq_true, Bool.and_eq_true, decide_eq_true_iff, decide_eq_true_iff,
    decide_eq_true_iff] at blank
  rcases blank with rfl | ⟨least, most⟩
  · decide
  · have above : 9 ≤ character.toNat := least
    have below : character.toNat ≤ 13 := most
    omega

/-- A character from the digits on is no terminator, no blank and no sign. -/
theorem plain_of_le {character : UInt8} (behind : 48 ≤ character.toNat) :
    (character ≠ 0 ∧ isspace character = false) ∧ character ≠ '-'.toUInt8 ∧
      character ≠ '+'.toUInt8 ∧ character ≠ '%'.toUInt8 := by
  refine ⟨⟨?_, ?_⟩, ?_, ?_, ?_⟩
  · rintro rfl
    exact absurd behind (by decide)
  · rw [← Bool.not_eq_true]
    intro blank
    have below := (toNat_le_of_isspace blank).2
    omega
  · rintro rfl
    exact absurd behind (by decide)
  · rintro rfl
    exact absurd behind (by decide)
  · rintro rfl
    exact absurd behind (by decide)

/-- The codes of the letters, the digits and a few other characters are all different. -/
theorem nodup_codes {marks : List ℕ} (different : marks.Nodup)
    (apart : ∀ mark ∈ marks,
      mark < 48 ∨ 57 < mark ∧ mark < 65 ∨ 90 < mark ∧ mark < 97 ∨ 122 < mark) :
    (List.range' 65 26 ++ List.range' 97 26 ++ List.range' 48 10 ++ marks).Nodup := by
  simp only [List.nodup_append, List.mem_append, List.mem_range'_1]
  refine ⟨⟨⟨List.nodup_range', List.nodup_range', ?_⟩, List.nodup_range', ?_⟩, different, ?_⟩
  · omega
  · omega
  · intro code letter mark member
    have between := apart mark member
    omega

/-- What holds of the first 256 numbers holds of every byte. -/
theorem forall_byte {holds : UInt8 → Prop} (checked : ∀ value < 256, holds (UInt8.ofNat value))
    (byte : UInt8) : holds byte := by
  have same : UInt8.ofNat byte.toNat = byte := UInt8.ofNat_toNat
  exact same ▸ checked byte.toNat byte.toNat_lt

/-- The code of a written digit is a byte. -/
theorem code_of_mem_toDigits {number : ℕ} {digit : Char}
    (written : digit ∈ Nat.toDigits 10 number) :
    48 ≤ digit.toNat ∧ digit.toNat ≤ 57 ∧ digit.toNat.toUInt8.toNat = digit.toNat := by
  have isDigit := Nat.isDigit_of_mem_toDigits (by decide) (by decide) written
  rw [Char.isDigit, Bool.and_eq_true, decide_eq_true_iff, decide_eq_true_iff] at isDigit
  have atLeast : 48 ≤ digit.toNat := isDigit.1
  have atMost : digit.toNat ≤ 57 := isDigit.2
  refine ⟨atLeast, atMost, ?_⟩
  rw [Nat.toUInt8, UInt8.toNat_ofNat']
  omega

/-- The characters of a written number are digits. -/
theorem isdigit_of_mem_repr (number : ℕ) : ∀ ch ∈ ascii number.repr, isdigit ch = true := by
  rw [ascii, Nat.toList_repr]
  intro ch member
  obtain ⟨digit, written, rfl⟩ := List.mem_map.mp member
  obtain ⟨atLeast, atMost, code⟩ := code_of_mem_toDigits written
  rw [isdigit_iff, code]
  exact ⟨atLeast, atMost⟩

end Kurlyk.Utils
