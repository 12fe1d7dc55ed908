/-
This file models `utils/base64_url.hpp`, Base64url without padding (RFC 4648).

Strings and buffers are lists of bytes. The encoder's loop over `data` and the
decoder's loop over `padded` are recursions on what is still to be read; the
24-bit groups and the shifts and masks on them are those of `uint32_t`.

Over the model stands the encoding as the RFC describes it: the bits of the
bytes, cut into groups of six with zeros at the end, each group written as a
character of the alphabet. The encoder is proved to be that function, the decoder
its inverse, and the texts that survive a round trip are exactly the canonical
ones.
-/

import Mathlib.Data.List.Nodup
import Kurlyk.Lib.Bits
import Kurlyk.Utils.Characters

namespace Kurlyk.Utils

/-! ### The model -/

def table : List UInt8 :=
  ascii "ABCDEFGHIJKLMNOPQRSTUVWXYZabcdefghijklmnopqrstuvwxyz0123456789-_"

/-- `table[index]`; every index the encoder uses is masked with `0x3F`. -/
def tableAt (index : UInt32) : UInt8 :=
  table.getD index.toNat 0

def base64urlEncode : List UInt8 → List UInt8
  | data0 :: data1 :: data2 :: rest =>
    let b := data0.toUInt32 <<< 16 ||| data1.toUInt32 <<< 8 ||| data2.toUInt32
    tableAt (b >>> 18 &&& 0x3F) :: tableAt (b >>> 12 &&& 0x3F) :: tableAt (b >>> 6 &&& 0x3F) ::
      tableAt (b &&& 0x3F) :: base64urlEncode rest
  | [data0] =>
    let b := data0.toUInt32 <<< 16
    [tableAt (b >>> 18 &&& 0x3F), tableAt (b >>> 12 &&& 0x3F)]
  | [data0, data1] =>
    let b := data0.toUInt32 <<< 16 ||| data1.toUInt32 <<< 8
    [tableAt (b >>> 18 &&& 0x3F), tableAt (b >>> 12 &&& 0x3F), tableAt (b >>> 6 &&& 0x3F)]
  | [] => []

def decodeTable : List ℤ := [
  -1, -1, -1, -1, -1, -1, -1, -1, -1, -1, -1, -1, -1, -1, -1, -1,
  -1, -1, -1, -1, -1, -1, -1, -1, -1, -1, -1, -1, -1, -1, -1, -1,
  -1, -1, -1, -1, -1, -1, -1, -1, -1, -1, -1, -1, -1, 62, -1, -1,
  52, 53, 54, 55, 56, 57, 58, 59, 60, 61, -1, -1, -1, -1, -1, -1,
  -1,  0,  1,  2,  3,  4,  5,  6,  7,  8,  9, 10, 11, 12, 13, 14,
  15, 16, 17, 18, 19, 20, 21, 22, 23, 24, 25, -1, -1, -1, -1, 63,
  -1, 26, 27, 28, 29, 30, 31, 32, 33, 34, 35, 36, 37, 38, 39, 40,
  41, 42, 43, 44, 45, 46, 47, 48, 49, 50, 51, -1, -1, -1, -1, -1,
  -1, -1, -1, -1, -1, -1, -1, -1, -1, -1, -1, -1, -1, -1, -1, -1,
  -1, -1, -1, -1, -1, -1, -1, -1, -1, -1, -1, -1, -1, -1, -1, -1,
  -1, -1, -1, -1, -1, -1, -1, -1, -1, -1, -1, -1, -1, -1, -1, -1,
  -1, -1, -1, -1, -1, -1, -1, -1, -1, -1, -1, -1, -1, -1, -1, -1,
  -1, -1, -1, -1, -1, -1, -1, -1, -1, -1, -1, -1, -1, -1, -1, -1,
  -1, -1, -1, -1, -1, -1, -1, -1, -1, -1, -1, -1, -1, -1, -1, -1,
  -1, -1, -1, -1, -1, -1, -1, -1, -1, -1, -1, -1, -1, -1, -1, -1,
  -1, -1, -1, -1, -1, -1, -1, -1, -1, -1, -1, -1, -1, -1, -1, -1]

/-- `decode_table[static_cast<uint8_t>(character)]`. -/
def decodeTableAt (character : UInt8) : ℤ :=
  decodeTable.getD character.toNat (-1)

/-- The padding character `'='`. -/
def padding : UInt8 := 61

/-- The loop that pushes `'='` until the size is a multiple of four. -/
def padded (value : List UInt8) : List UInt8 :=
  value ++ List.replicate ((4 - value.length % 4) % 4) padding

/-- The decoder's loop over the padded text, four characters at a time. -/
def decodeGroups : List UInt8 → List UInt8
  | padded0 :: padded1 :: padded2 :: padded3 :: rest =>
    let c0 := decodeTableAt padded0
    let c1 := decodeTableAt padded1
    let c2 := decodeTableAt padded2
    let c3 := decodeTableAt padded3
    if c0 < 0 ∨ c1 < 0 then []
    else if c2 < 0 ∧ padded2 ≠ padding then []
    else if c3 < 0 ∧ padded3 ≠ padding then []
    else
      let b := c0.toNat.toUInt32 <<< 18 ||| c1.toNat.toUInt32 <<< 12 |||
        (if c2 ≥ 0 then c2.toNat.toUInt32 else 0) <<< 6 ||| (if c3 ≥ 0 then c3.toNat.toUInt32 else 0)
      [(b >>> 16 &&& 0xFF).toUInt8] ++
        (if padded2 ≠ padding then [(b >>> 8 &&& 0xFF).toUInt8] else []) ++
        (if padded3 ≠ padding then [(b &&& 0xFF).toUInt8] else []) ++ decodeGroups rest
  | _ => []

def base64urlDecode (value : List UInt8) : List UInt8 :=
  decodeGroups (padded value)

/-! ### The encoding the RFC describes -/

/-- The "URL and filename safe" alphabet, in the order of the values 0 to 63. -/
def alphabet : List UInt8 :=
  (List.range 26).map (fun offset => 65 + offset.toUInt8) ++
    (List.range 26).map (fun offset => 97 + offset.toUInt8) ++
    (List.range 10).map (fun offset => 48 + offset.toUInt8) ++ [45, 95]

/-- The character of the alphabet that stands for a value. -/
def character (value : ℕ) : UInt8 :=
  alphabet.getD value 0

/-- The bits of the bytes in groups of six, each written as a character. -/
def unpaddedText (data : List UInt8) : List UInt8 :=
  (Bits.groups 6 (data.flatMap fun byte => Bits.toBits 8 byte.toNat)).map
    fun bits => character (Bits.ofBits bits)

/-- The number of low bits of the last character of a text that no byte uses. -/
def unusedBits (length : ℕ) : ℕ :=
  6 * length % 8

/-- A text of the alphabet of a possible length, whose last character has its unused bits zero. -/
structure Canonical (text : List UInt8) : Prop where
  inAlphabet : ∀ symbol ∈ text, symbol ∈ alphabet
  possible : text.length % 4 ≠ 1
  unused : ∀ last ∈ text.getLast?, alphabet.idxOf last % 2 ^ unusedBits text.length = 0

theorem table_eq_alphabet : table = alphabet :=
  (ascii_ofList _).trans rfl

/-! ### Characters and their values -/

theorem character_mem {value : ℕ} (small : value < 64) : character value ∈ alphabet := by
  have length : alphabet.length = 64 := by decide
  rw [character, List.getD_eq_getElem _ _ (by omega)]
  exact List.getElem_mem _

theorem exists_value {symbol : UInt8} (member : symbol ∈ alphabet) :
    ∃ value < 64, symbol = character value := by
  obtain ⟨value, small, rfl⟩ := List.mem_iff_getElem.mp member
  have length : alphabet.length = 64 := by decide
  exact ⟨value, by omega, (List.getD_eq_getElem _ _ small).symm⟩

theorem nodup_alphabet : alphabet.Nodup := by
  have codes : alphabet.map UInt8.toNat =
      List.range' 65 26 ++ List.range' 97 26 ++ List.range' 48 10 ++ [45, 95] := rfl
  refine List.Nodup.of_map UInt8.toNat ?_
  rw [codes]
  exact nodup_codes (by decide) (by decide)

theorem idxOf_character (value : ℕ) (small : value < 64) :
    alphabet.idxOf (character value) = value := by
  have length : alphabet.length = 64 := by decide
  rw [character, List.getD_eq_getElem _ _ (by omega)]
  exact nodup_alphabet.idxOf_getElem value _

theorem decodeTableAt_character : ∀ value < 64, decodeTableAt (character value) = value := by
  decide +kernel

theorem padding_not_mem : padding ∉ alphabet := by
  decide

theorem character_ne_padding : ∀ value < 64, character value ≠ padding := by
  intro value small same
  have member := character_mem small
  rw [same] at member
  exact padding_not_mem member

theorem decodeTableAt_padding : decodeTableAt padding = -1 := by
  decide

/-! ### The encoder's arithmetic -/

theorem tableAt_field (b shift : UInt32) (inWord : shift.toNat < 32) :
    tableAt (b >>> shift &&& 0x3F) = character (b.toNat / 2 ^ shift.toNat % 64) := by
  have field : (b >>> shift &&& 0x3F).toNat = b.toNat / 2 ^ shift.toNat % 64 := by
    rw [UInt32.toNat_and, UInt32.toNat_shiftRight, Nat.mod_eq_of_lt inWord,
      Nat.shiftRight_eq_div_pow]
    exact Nat.and_two_pow_sub_one_eq_mod _ 6
  rw [tableAt, field, table_eq_alphabet, character]

/-- Parts of a word that do not overlap are added. -/
theorem toNat_shiftLeft_or {high low shift : UInt32} {value rest : ℕ} (highIs : high.toNat = value)
    (lowIs : low.toNat = rest) (inWord : shift.toNat < 32)
    (bound : value * 2 ^ shift.toNat < 2 ^ 32) (apart : rest < 2 ^ shift.toNat) :
    (high <<< shift ||| low).toNat = value * 2 ^ shift.toNat + rest := by
  subst highIs lowIs
  rw [UInt32.toNat_or, UInt32.toNat_shiftLeft, Nat.mod_eq_of_lt inWord,
    Nat.mod_eq_of_lt (by rw [Nat.shiftLeft_eq]; exact bound),
    ← Nat.shiftLeft_add_eq_or_of_lt apart, Nat.shiftLeft_eq]

theorem toNat_encoderGroup (data0 data1 data2 : UInt8) :
    (data0.toUInt32 <<< 16 ||| data1.toUInt32 <<< 8 ||| data2.toUInt32).toNat =
      data0.toNat * 65536 + data1.toNat * 256 + data2.toNat := by
  have bound0 := data0.toNat_lt
  have bound1 := data1.toNat_lt
  have bound2 := data2.toNat_lt
  have low : (data1.toUInt32 <<< 8 ||| data2.toUInt32).toNat =
      data1.toNat * 256 + data2.toNat := by
    rw [toNat_shiftLeft_or data1.toNat_toUInt32 data2.toNat_toUInt32] <;>
      simp only [UInt32.reduceToNat] <;> omega
  rw [UInt32.or_assoc, toNat_shiftLeft_or data0.toNat_toUInt32 low] <;>
    simp only [UInt32.reduceToNat] <;> omega

/-- The four characters of a group of three bytes. -/
theorem tableAt_encoderGroup {b : UInt32} {data0 data1 data2 : UInt8}
    (group : b.toNat = data0.toNat * 65536 + data1.toNat * 256 + data2.toNat) :
    tableAt (b >>> 18 &&& 0x3F) = character (data0.toNat / 4) ∧
      tableAt (b >>> 12 &&& 0x3F) = character (data0.toNat % 4 * 16 + data1.toNat / 16) ∧
      tableAt (b >>> 6 &&& 0x3F) = character (data1.toNat % 16 * 4 + data2.toNat / 64) ∧
      tableAt (b &&& 0x3F) = character (data2.toNat % 64) := by
  have bound0 := data0.toNat_lt
  have bound1 := data1.toNat_lt
  have bound2 := data2.toNat_lt
  have lowest := tableAt_field b 0 (by decide)
  rw [UInt32.shiftRight_zero] at lowest
  refine ⟨?_, ?_, ?_, ?_⟩
  · rw [tableAt_field b 18 (by decide), group]
    refine congrArg character ?_
    simp only [UInt32.reduceToNat]
    omega
  · rw [tableAt_field b 12 (by decide), group]
    refine congrArg character ?_
    simp only [UInt32.reduceToNat]
    omega
  · rw [tableAt_field b 6 (by decide), group]
    refine congrArg character ?_
    simp only [UInt32.reduceToNat]
    omega
  · rw [lowest, group]
    refine congrArg character ?_
    simp only [UInt32.reduceToNat]
    omega

theorem base64urlEncode_three (data0 data1 data2 : UInt8) (rest : List UInt8) :
    base64urlEncode (data0 :: data1 :: data2 :: rest) =
      character (data0.toNat / 4) :: character (data0.toNat % 4 * 16 + data1.toNat / 16) ::
        character (data1.toNat % 16 * 4 + data2.toNat / 64) :: character (data2.toNat % 64) ::
          base64urlEncode rest := by
  obtain ⟨first, second, third, fourth⟩ :=
    tableAt_encoderGroup (toNat_encoderGroup data0 data1 data2)
  simp only [base64urlEncode, first, second, third, fourth]

theorem base64urlEncode_two (data0 data1 : UInt8) :
    base64urlEncode [data0, data1] =
      [character (data0.toNat / 4), character (data0.toNat % 4 * 16 + data1.toNat / 16),
        character (data1.toNat % 16 * 4)] := by
  have group := toNat_encoderGroup data0 data1 0
  rw [show (0 : UInt8).toUInt32 = 0 from rfl, UInt32.or_zero] at group
  obtain ⟨first, second, third, -⟩ := tableAt_encoderGroup group
  simp only [base64urlEncode, first, second, third]
  rfl

theorem base64urlEncode_one (data0 : UInt8) :
    base64urlEncode [data0] =
      [character (data0.toNat / 4), character (data0.toNat % 4 * 16)] := by
  have group := toNat_encoderGroup data0 0 0
  rw [show (0 : UInt8).toUInt32 = 0 from rfl, UInt32.zero_shiftLeft, UInt32.or_zero,
    UInt32.or_zero] at group
  obtain ⟨first, second, -, -⟩ := tableAt_encoderGroup group
  simp only [base64urlEncode, first, second]
  rfl

/-! ### The encoder writes the text of the RFC -/

theorem toBits_six_two (value : ℕ) :
    Bits.toBits 8 value = Bits.toBits 6 (value / 4) ++ Bits.toBits 2 value :=
  Bits.toBits_add 6 2 value

theorem toBits_four_four (value : ℕ) :
    Bits.toBits 8 value = Bits.toBits 4 (value / 16) ++ Bits.toBits 4 value :=
  Bits.toBits_add 4 4 value

theorem toBits_two_six (value : ℕ) :
    Bits.toBits 8 value = Bits.toBits 2 (value / 64) ++ Bits.toBits 6 value :=
  Bits.toBits_add 2 6 value

theorem unpaddedText_three (data0 data1 data2 : UInt8) (rest : List UInt8) :
    unpaddedText (data0 :: data1 :: data2 :: rest) =
      character (data0.toNat / 4) :: character (data0.toNat % 4 * 16 + data1.toNat / 16) ::
        character (data1.toNat % 16 * 4 + data2.toNat / 64) :: character (data2.toNat % 64) ::
          unpaddedText rest := by
  have bound0 := data0.toNat_lt
  have bound1 := data1.toNat_lt
  have bound2 := data2.toNat_lt
  have bits : (data0 :: data1 :: data2 :: rest).flatMap (fun byte => Bits.toBits 8 byte.toNat) =
      Bits.toBits 6 (data0.toNat / 4) ++
        ((Bits.toBits 2 data0.toNat ++ Bits.toBits 4 (data1.toNat / 16)) ++
          ((Bits.toBits 4 data1.toNat ++ Bits.toBits 2 (data2.toNat / 64)) ++
            (Bits.toBits 6 data2.toNat ++
              rest.flatMap fun byte => Bits.toBits 8 byte.toNat))) := by
    simp only [List.flatMap_cons, List.append_assoc]
    rw [toBits_six_two data0.toNat, toBits_four_four data1.toNat, toBits_two_six data2.toNat]
    simp only [List.append_assoc]
  rw [unpaddedText, bits, Bits.groups_append (by decide) (by simp),
    Bits.groups_append (by decide) (by simp), Bits.groups_append (by decide) (by simp),
    Bits.groups_append (by decide) (by simp)]
  simp only [List.map_cons, Bits.ofBits_append, Bits.ofBits_toBits, Bits.length_toBits]
  refine congrArg₂ List.cons (congrArg character ?_) <|
    congrArg₂ List.cons (congrArg character ?_) <|
    congrArg₂ List.cons (congrArg character ?_) <|
    congrArg₂ List.cons (congrArg character ?_) rfl <;> omega

theorem unpaddedText_two (data0 data1 : UInt8) :
    unpaddedText [data0, data1] =
      [character (data0.toNat / 4), character (data0.toNat % 4 * 16 + data1.toNat / 16),
        character (data1.toNat % 16 * 4)] := by
  have bound0 := data0.toNat_lt
  have bound1 := data1.toNat_lt
  have bits : [data0, data1].flatMap (fun byte => Bits.toBits 8 byte.toNat) =
      Bits.toBits 6 (data0.toNat / 4) ++
        ((Bits.toBits 2 data0.toNat ++ Bits.toBits 4 (data1.toNat / 16)) ++
          Bits.toBits 4 data1.toNat) := by
    simp only [List.flatMap_cons, List.flatMap_nil, List.append_nil]
    rw [toBits_six_two data0.toNat, toBits_four_four data1.toNat]
    simp only [List.append_assoc]
  rw [unpaddedText, bits, Bits.groups_append (by decide) (by simp),
    Bits.groups_append (by decide) (by simp),
    Bits.groups_last (by simp [Bits.toBits]) (by simp)]
  simp only [List.map_cons, List.map_nil, Bits.ofBits_append, Bits.ofBits_toBits,
    Bits.length_toBits, Bits.ofBits_replicate_false, List.length_replicate]
  refine congrArg₂ List.cons (congrArg character ?_) <|
    congrArg₂ List.cons (congrArg character ?_) <|
    congrArg₂ List.cons (congrArg character ?_) rfl <;> omega

theorem unpaddedText_one (data0 : UInt8) :
    unpaddedText [data0] = [character (data0.toNat / 4), character (data0.toNat % 4 * 16)] := by
  have bound0 := data0.toNat_lt
  have bits : [data0].flatMap (fun byte => Bits.toBits 8 byte.toNat) =
      Bits.toBits 6 (data0.toNat / 4) ++ Bits.toBits 2 data0.toNat := by
    simp only [List.flatMap_cons, List.flatMap_nil, List.append_nil]
    exact toBits_six_two data0.toNat
  rw [unpaddedText, bits, Bits.groups_append (by decide) (by simp),
    Bits.groups_last (by simp [Bits.toBits]) (by simp)]
  simp only [List.map_cons, List.map_nil, Bits.ofBits_append, Bits.ofBits_toBits,
    Bits.length_toBits, Bits.ofBits_replicate_false, List.length_replicate]
  refine congrArg₂ List.cons (congrArg character ?_) <|
    congrArg₂ List.cons (congrArg character ?_) rfl <;> omega

theorem base64urlEncode_eq_unpaddedText (data : List UInt8) :
    base64urlEncode data = unpaddedText data := by
  induction data using base64urlEncode.induct with
  | case1 data0 data1 data2 rest inductionHypothesis =>
    rw [base64urlEncode_three, unpaddedText_three, inductionHypothesis]
  | case2 data0 => rw [base64urlEncode_one, unpaddedText_one]
  | case3 data0 data1 => rw [base64urlEncode_two, unpaddedText_two]
  | case4 => simp [base64urlEncode, unpaddedText, Bits.groups_nil]

theorem length_base64urlEncode (data : List UInt8) :
    (base64urlEncode data).length = (4 * data.length + 2) / 3 := by
  have bits : (data.flatMap fun byte => Bits.toBits 8 byte.toNat).length = 8 * data.length := by
    simp [List.length_flatMap, Nat.mul_comm]
  rw [base64urlEncode_eq_unpaddedText, unpaddedText, List.length_map, Bits.length_groups, bits]
  omega

/-! ### The decoder's arithmetic -/

theorem toNat_decoderGroup {value0 value1 value2 value3 : ℕ} (small0 : value0 < 64)
    (small1 : value1 < 64) (small2 : value2 < 64) (small3 : value3 < 64) :
    (value0.toUInt32 <<< 18 ||| value1.toUInt32 <<< 12 ||| value2.toUInt32 <<< 6 |||
      value3.toUInt32).toNat = value0 * 262144 + value1 * 4096 + value2 * 64 + value3 := by
  have word : ∀ value < 64, value.toUInt32.toNat = value := by
    intro value small
    rw [Nat.toUInt32_eq, UInt32.toNat_ofNat', Nat.mod_eq_of_lt (by omega)]
  have low : (value2.toUInt32 <<< 6 ||| value3.toUInt32).toNat = value2 * 64 + value3 := by
    rw [toNat_shiftLeft_or (word value2 small2) (word value3 small3)] <;>
      simp only [UInt32.reduceToNat] <;> omega
  have middle : (value1.toUInt32 <<< 12 ||| (value2.toUInt32 <<< 6 ||| value3.toUInt32)).toNat =
      value1 * 4096 + (value2 * 64 + value3) := by
    rw [toNat_shiftLeft_or (word value1 small1) low] <;>
      simp only [UInt32.reduceToNat] <;> omega
  rw [UInt32.or_assoc, UInt32.or_assoc, toNat_shiftLeft_or (word value0 small0) middle] <;>
    simp only [UInt32.reduceToNat] <;> omega

theorem toUInt8_field (b shift : UInt32) (inWord : shift.toNat < 32) :
    (b >>> shift &&& 0xFF).toUInt8 = UInt8.ofNat (b.toNat / 2 ^ shift.toNat) := by
  have field : (b >>> shift &&& 0xFF).toNat = b.toNat / 2 ^ shift.toNat % 256 := by
    rw [UInt32.toNat_and, UInt32.toNat_shiftRight, Nat.mod_eq_of_lt inWord,
      Nat.shiftRight_eq_div_pow]
    exact Nat.and_two_pow_sub_one_eq_mod _ 8
  apply UInt8.toNat_inj.mp
  rw [UInt32.toNat_toUInt8, field, UInt8.toNat_ofNat']
  omega

/-- The three bytes of a group of four characters. -/
theorem toUInt8_decoderGroup {b : UInt32} {value0 value1 value2 value3 : ℕ} (small2 : value2 < 64)
    (small3 : value3 < 64)
    (group : b.toNat = value0 * 262144 + value1 * 4096 + value2 * 64 + value3) :
    (b >>> 16 &&& 0xFF).toUInt8 = UInt8.ofNat (value0 * 4 + value1 / 16) ∧
      (b >>> 8 &&& 0xFF).toUInt8 = UInt8.ofNat (value1 % 16 * 16 + value2 / 4) ∧
      (b &&& 0xFF).toUInt8 = UInt8.ofNat (value2 % 4 * 64 + value3) := by
  have lowest := toUInt8_field b 0 (by decide)
  rw [UInt32.shiftRight_zero] at lowest
  refine ⟨?_, ?_, ?_⟩
  · rw [toUInt8_field b 16 (by decide), group]
    apply UInt8.toNat_inj.mp
    simp only [UInt32.reduceToNat, UInt8.toNat_ofNat']
    omega
  · rw [toUInt8_field b 8 (by decide), group]
    apply UInt8.toNat_inj.mp
    simp only [UInt32.reduceToNat, UInt8.toNat_ofNat']
    omega
  · rw [lowest, group]
    apply UInt8.toNat_inj.mp
    simp only [UInt32.reduceToNat, UInt8.toNat_ofNat']
    omega

variable {value0 value1 value2 value3 : ℕ}

theorem padded_four (symbol0 symbol1 symbol2 symbol3 : UInt8) (rest : List UInt8) :
    padded (symbol0 :: symbol1 :: symbol2 :: symbol3 :: rest) =
      symbol0 :: symbol1 :: symbol2 :: symbol3 :: padded rest := by
  have same : (rest.length + 1 + 1 + 1 + 1) % 4 = rest.length % 4 := by
    omega
  simp only [padded, List.length_cons, same, List.cons_append]

theorem base64urlDecode_four (small0 : value0 < 64) (small1 : value1 < 64) (small2 : value2 < 64)
    (small3 : value3 < 64) (rest : List UInt8) :
    base64urlDecode (character value0 :: character value1 :: character value2 ::
        character value3 :: rest) =
      UInt8.ofNat (value0 * 4 + value1 / 16) :: UInt8.ofNat (value1 % 16 * 16 + value2 / 4) ::
        UInt8.ofNat (value2 % 4 * 64 + value3) :: base64urlDecode rest := by
  have natural : ∀ value : ℕ, ¬ (value : ℤ) < 0 := by
    intro value
    omega
  obtain ⟨first, second, third⟩ := toUInt8_decoderGroup small2 small3
    (toNat_decoderGroup small0 small1 small2 small3)
  rw [base64urlDecode, padded_four, decodeGroups]
  simp only [decodeTableAt_character, character_ne_padding, natural, small0, small1, small2, small3,
    ge_iff_le, Int.natCast_nonneg, Int.toNat_natCast, first, second, third, or_self, false_and,
    if_true, if_false, ne_eq, not_false_eq_true]
  rfl

theorem base64urlDecode_three (small0 : value0 < 64) (small1 : value1 < 64)
    (small2 : value2 < 64) :
    base64urlDecode [character value0, character value1, character value2] =
      [UInt8.ofNat (value0 * 4 + value1 / 16), UInt8.ofNat (value1 % 16 * 16 + value2 / 4)] := by
  have natural : ∀ value : ℕ, ¬ (value : ℤ) < 0 := by
    intro value
    omega
  have zero : (0 : ℕ).toUInt32 = 0 := rfl
  have group := toNat_decoderGroup small0 small1 small2 (by decide : 0 < 64)
  obtain ⟨first, second, -⟩ := toUInt8_decoderGroup small2 (by decide) group
  have text : padded [character value0, character value1, character value2] =
      [character value0, character value1, character value2, padding] := rfl
  rw [zero] at first second
  rw [base64urlDecode, text, decodeGroups]
  simp only [decodeTableAt_character, character_ne_padding, decodeTableAt_padding, natural, small0,
    small1, small2, ge_iff_le, Int.natCast_nonneg, Int.toNat_natCast, Int.reduceLE, Int.reduceNeg,
    Int.reduceLT, first, second, or_self, false_and, and_false, if_true, if_false, ne_eq,
    not_true_eq_false, not_false_eq_true]
  rfl

theorem base64urlDecode_two (small0 : value0 < 64) (small1 : value1 < 64) :
    base64urlDecode [character value0, character value1] =
      [UInt8.ofNat (value0 * 4 + value1 / 16)] := by
  have natural : ∀ value : ℕ, ¬ (value : ℤ) < 0 := by
    intro value
    omega
  have zero : (0 : ℕ).toUInt32 = 0 := rfl
  have group := toNat_decoderGroup small0 small1 (by decide : 0 < 64) (by decide : 0 < 64)
  obtain ⟨first, -, -⟩ := toUInt8_decoderGroup (by decide) (by decide) group
  have text : padded [character value0, character value1] =
      [character value0, character value1, padding, padding] := rfl
  rw [zero] at first
  rw [base64urlDecode, text, decodeGroups]
  simp only [decodeTableAt_character, decodeTableAt_padding, natural, small0, small1, ge_iff_le,
    Int.toNat_natCast, Int.reduceLE, Int.reduceNeg, Int.reduceLT, first, or_self, and_false,
    if_false, ne_eq, not_true_eq_false]
  rfl

/-! ### Round trips -/

theorem ofNat_eq_byte {value : ℕ} (byte : UInt8) (same : value = byte.toNat) :
    UInt8.ofNat value = byte := by
  rw [same, UInt8.ofNat_toNat]

theorem decode_encode (data : List UInt8) : base64urlDecode (base64urlEncode data) = data := by
  induction data using base64urlEncode.induct with
  | case1 data0 data1 data2 rest inductionHypothesis =>
    have bound0 := data0.toNat_lt
    have bound1 := data1.toNat_lt
    have bound2 := data2.toNat_lt
    rw [base64urlEncode_three, base64urlDecode_four (by omega) (by omega) (by omega) (by omega),
      inductionHypothesis, ofNat_eq_byte data0 (by omega), ofNat_eq_byte data1 (by omega),
      ofNat_eq_byte data2 (by omega)]
  | case2 data0 =>
    have bound0 := data0.toNat_lt
    rw [base64urlEncode_one, base64urlDecode_two (by omega) (by omega),
      ofNat_eq_byte data0 (by omega)]
  | case3 data0 data1 =>
    have bound0 := data0.toNat_lt
    have bound1 := data1.toNat_lt
    rw [base64urlEncode_two, base64urlDecode_three (by omega) (by omega) (by omega),
      ofNat_eq_byte data0 (by omega), ofNat_eq_byte data1 (by omega)]
  | case4 => rfl

theorem canonical_nil : Canonical [] :=
  ⟨nofun, by decide, nofun⟩

/-- A text is canonical when its first four characters are of the alphabet and the rest is. -/
theorem canonical_four {symbol0 symbol1 symbol2 symbol3 : UInt8} {rest : List UInt8} :
    Canonical (symbol0 :: symbol1 :: symbol2 :: symbol3 :: rest) ↔
      (symbol0 ∈ alphabet ∧ symbol1 ∈ alphabet ∧ symbol2 ∈ alphabet ∧ symbol3 ∈ alphabet) ∧
        Canonical rest := by
  have lengths : (symbol0 :: symbol1 :: symbol2 :: symbol3 :: rest).length = rest.length + 4 := rfl
  have sameUnused : unusedBits (rest.length + 4) = unusedBits rest.length := by
    simp only [unusedBits]
    omega
  constructor
  · rintro ⟨inAlphabet, possible, unused⟩
    refine ⟨⟨inAlphabet _ (by simp), inAlphabet _ (by simp), inAlphabet _ (by simp),
      inAlphabet _ (by simp)⟩, fun symbol member => inAlphabet _ (by simp [member]), ?_, ?_⟩
    · rw [lengths] at possible
      omega
    · intro last isLast
      rw [lengths, sameUnused] at unused
      exact unused last (by
        rw [List.getLast?_cons, List.getLast?_cons, List.getLast?_cons, List.getLast?_cons, isLast]
        rfl)
  · rintro ⟨⟨in0, in1, in2, in3⟩, inAlphabet, possible, unused⟩
    refine ⟨?_, by rw [lengths]; omega, ?_⟩
    · intro symbol member
      simp only [List.mem_cons] at member
      rcases member with rfl | rfl | rfl | rfl | member
      exacts [in0, in1, in2, in3, inAlphabet symbol member]
    · intro last isLast
      rw [lengths, sameUnused]
      rcases rest.eq_nil_or_concat with rfl | ⟨init, final, rfl⟩
      · exact Nat.mod_one _
      · refine unused last ?_
        simpa [List.getLast?_cons] using isLast

theorem canonical_encode (data : List UInt8) : Canonical (base64urlEncode data) := by
  induction data using base64urlEncode.induct with
  | case1 data0 data1 data2 rest inductionHypothesis =>
    have bound0 := data0.toNat_lt
    have bound1 := data1.toNat_lt
    have bound2 := data2.toNat_lt
    rw [base64urlEncode_three]
    exact canonical_four.mpr ⟨⟨character_mem (by omega), character_mem (by omega),
      character_mem (by omega), character_mem (by omega)⟩, inductionHypothesis⟩
  | case2 data0 =>
    have bound0 := data0.toNat_lt
    rw [base64urlEncode_one]
    refine ⟨?_, by simp, ?_⟩
    · intro symbol member
      simp only [List.mem_cons, List.not_mem_nil, or_false] at member
      rcases member with rfl | rfl <;> exact character_mem (by omega)
    · rintro last ⟨rfl⟩
      have value := idxOf_character (data0.toNat % 4 * 16) (by omega)
      simp [unusedBits, value]
  | case3 data0 data1 =>
    have bound0 := data0.toNat_lt
    have bound1 := data1.toNat_lt
    rw [base64urlEncode_two]
    refine ⟨?_, by simp, ?_⟩
    · intro symbol member
      simp only [List.mem_cons, List.not_mem_nil, or_false] at member
      rcases member with rfl | rfl | rfl <;> exact character_mem (by omega)
    · rintro last ⟨rfl⟩
      have value := idxOf_character (data1.toNat % 16 * 4) (by omega)
      simp [unusedBits, value]
  | case4 => exact canonical_nil

/-- Encoding gives a canonical text back from its bytes, four characters at a time. -/
theorem encode_decode : ∀ text : List UInt8, Canonical text →
    base64urlEncode (base64urlDecode text) = text
  | symbol0 :: symbol1 :: symbol2 :: symbol3 :: rest, canonical => by
    obtain ⟨⟨in0, in1, in2, in3⟩, canonicalRest⟩ := canonical_four.mp canonical
    obtain ⟨value0, small0, rfl⟩ := exists_value in0
    obtain ⟨value1, small1, rfl⟩ := exists_value in1
    obtain ⟨value2, small2, rfl⟩ := exists_value in2
    obtain ⟨value3, small3, rfl⟩ := exists_value in3
    rw [base64urlDecode_four small0 small1 small2 small3, base64urlEncode_three,
      encode_decode rest canonicalRest]
    simp only [UInt8.toNat_ofNat']
    refine congrArg₂ List.cons (congrArg character ?_) <|
      congrArg₂ List.cons (congrArg character ?_) <|
      congrArg₂ List.cons (congrArg character ?_) <|
      congrArg₂ List.cons (congrArg character ?_) rfl <;> omega
  | [symbol0, symbol1, symbol2], canonical => by
    obtain ⟨value0, small0, rfl⟩ := exists_value (canonical.inAlphabet symbol0 (by simp))
    obtain ⟨value1, small1, rfl⟩ := exists_value (canonical.inAlphabet symbol1 (by simp))
    obtain ⟨value2, small2, rfl⟩ := exists_value (canonical.inAlphabet symbol2 (by simp))
    have zeros : value2 % 4 = 0 := by
      simpa [unusedBits, idxOf_character value2 small2] using canonical.unused _ rfl
    rw [base64urlDecode_three small0 small1 small2, base64urlEncode_two]
    simp only [UInt8.toNat_ofNat']
    refine congrArg₂ List.cons (congrArg character ?_) <|
      congrArg₂ List.cons (congrArg character ?_) <|
      congrArg₂ List.cons (congrArg character ?_) rfl <;> omega
  | [symbol0, symbol1], canonical => by
    obtain ⟨value0, small0, rfl⟩ := exists_value (canonical.inAlphabet symbol0 (by simp))
    obtain ⟨value1, small1, rfl⟩ := exists_value (canonical.inAlphabet symbol1 (by simp))
    have zeros : value1 % 16 = 0 := by
      simpa [unusedBits, idxOf_character value1 small1] using canonical.unused _ rfl
    rw [base64urlDecode_two small0 small1, base64urlEncode_one]
    simp only [UInt8.toNat_ofNat']
    refine congrArg₂ List.cons (congrArg character ?_) <|
      congrArg₂ List.cons (congrArg character ?_) rfl <;> omega
  | [_], canonical => absurd rfl canonical.possible
  | [], _ => rfl

/-- The encoder writes the unpadded Base64url text of any bytes, the decoder reads it back, and
the texts that survive decoding and encoding are exactly the canonical ones. -/
theorem base64url_roundtrip :
    (∀ data, base64urlEncode data = unpaddedText data ∧
      (∀ symbol ∈ base64urlEncode data, symbol ∈ alphabet) ∧
      (base64urlEncode data).length = (4 * data.length + 2) / 3 ∧
      base64urlDecode (base64urlEncode data) = data) ∧
    ∀ text, base64urlEncode (base64urlDecode text) = text ↔ Canonical text := by
  refine ⟨fun data => ⟨base64urlEncode_eq_unpaddedText data, (canonical_encode data).inAlphabet,
    length_base64urlEncode data, decode_encode data⟩, fun text => ⟨fun survives => ?_,
    encode_decode text⟩⟩
  rw [← survives]
  exact canonical_encode _

example : base64urlEncode (ascii "Man") = ascii "TWFu" := by
  rw [base64urlEncode_eq_unpaddedText, ascii_ofList, ascii_ofList]
  decide

end Kurlyk.Utils
