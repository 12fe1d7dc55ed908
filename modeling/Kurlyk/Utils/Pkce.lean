/-
This file models `generate_code_verifier` of `utils/pkce.hpp`. What OpenSSL gives is a stream of
bytes; `random_bytes` returns the next ones of it.

The loop draws as many bytes as the verifier is short of and pushes a character for each byte below
the largest multiple of the number of characters. That is rejection sampling as in `Lib/Rejection`,
with a character pushed where the symbol is kept.
-/

import Mathlib.Data.Int.CardIntervalMod
import Kurlyk.Lib.Rejection
import Kurlyk.Utils.Characters

namespace Kurlyk.Utils

open Rejection

/-! ### The model -/

/-- The characters of a verifier. -/
def allowed : List UInt8 :=
  ascii "ABCDEFGHIJKLMNOPQRSTUVWXYZabcdefghijklmnopqrstuvwxyz0123456789-_.~"

def allowedCount : ℕ := allowed.length

def acceptedLimit : ℕ := 256 - 256 % allowedCount

/-- `std::runtime_error("OpenSSL RAND_bytes failed")`. -/
inductive RuntimeError where
  | randBytesFailed
deriving DecidableEq

/-- `random_bytes`, on a stream that OpenSSL does not fail to give. -/
def randomBytes (stream : ℕ → UInt8) (position size : ℕ) : Except RuntimeError (List UInt8) :=
  if size > 2 ^ 31 - 1 then .error .randBytesFailed else .ok (draw stream position size)

/-- The loop over the drawn bytes. -/
def pushAccepted (length : ℕ) : List UInt8 → List UInt8 → List UInt8
  | [], verifier => verifier
  | byte :: rest, verifier =>
    if verifier.length < length then
      if byte.toNat ≥ acceptedLimit then pushAccepted length rest verifier
      else pushAccepted length rest (verifier ++ [allowed.getD (byte.toNat % allowedCount) 0])
    else verifier

/-- The outer loop, stopped after so many rounds. -/
def generateLoop (stream : ℕ → UInt8) (length : ℕ) :
    ℕ → ℕ → List UInt8 → Option (Except RuntimeError (List UInt8))
  | 0, _, _ => none
  | rounds + 1, position, verifier =>
    if verifier.length < length then
      let remaining := length - verifier.length
      match randomBytes stream position remaining with
      | .error exception => some (.error exception)
      | .ok randomData =>
        generateLoop stream length rounds (position + remaining)
          (pushAccepted length randomData verifier)
    else some (.ok verifier)

/-- The requested length, between 43 and 128. -/
def clampedLength (length : ℕ) : ℕ :=
  let atLeast := if length < 43 then 43 else length
  if atLeast > 128 then 128 else atLeast

/-- `generate_code_verifier`, stopped after so many rounds of its loop. -/
def generateCodeVerifier (stream : ℕ → UInt8) (rounds length : ℕ) :
    Option (Except RuntimeError (List UInt8)) :=
  generateLoop stream (clampedLength length) rounds 0 []

/-! ### The loop as rejection sampling -/

/-- The bytes that are not rejected. -/
def isAccepted (byte : UInt8) : Bool :=
  byte.toNat < acceptedLimit

/-- The character that an accepted byte stands for. -/
def verifierChar (byte : UInt8) : UInt8 :=
  allowed.getD (byte.toNat % allowedCount) 0

variable {stream : ℕ → UInt8} {length : ℕ}

/-- Where there is room for all drawn bytes, a character is pushed for each accepted one. -/
theorem pushAccepted_eq {data verifier : List UInt8}
    (room : verifier.length + data.length ≤ length) :
    pushAccepted length data verifier =
      verifier ++ (data.filter isAccepted).map verifierChar := by
  induction data generalizing verifier with
  | nil => rw [pushAccepted, List.filter_nil, List.map_nil, List.append_nil]
  | cons byte rest inductionHypothesis =>
    rw [List.length_cons] at room
    rw [pushAccepted, if_pos (by omega)]
    by_cases rejected : byte.toNat ≥ acceptedLimit
    · rw [if_pos rejected, inductionHypothesis (by omega), List.filter_cons_of_neg]
      simpa [isAccepted] using rejected
    · rw [if_neg rejected, inductionHypothesis (by rw [List.length_append]; simp; omega),
        List.filter_cons_of_pos (by simpa [isAccepted] using rejected), List.map_cons,
        List.append_assoc, List.singleton_append]
      rfl

theorem clampedLength_eq (length : ℕ) : clampedLength length = min (max length 43) 128 := by
  unfold clampedLength
  dsimp only
  split <;> split <;> omega

/-- The loop keeps the accepted bytes and writes their characters. -/
theorem generateLoop_eq (small : length ≤ 128) (rounds position : ℕ) {kept : List UInt8}
    (bounded : kept.length ≤ length) :
    generateLoop stream length rounds position (kept.map verifierChar) =
      (fill stream isAccepted length rounds position kept).map
        fun bytes => .ok (bytes.map verifierChar) := by
  induction rounds generalizing position kept with
  | zero => rfl
  | succ rounds inductionHypothesis =>
    rw [generateLoop, fill, List.length_map]
    split
    · have drawn : randomBytes stream position (length - kept.length) =
          .ok (draw stream position (length - kept.length)) := if_neg (by omega)
      have room : (kept.map verifierChar).length +
          (draw stream position (length - kept.length)).length ≤ length := by
        rw [List.length_map, length_draw]
        omega
      have batch := List.length_filter_le isAccepted (draw stream position (length - kept.length))
      rw [length_draw] at batch
      dsimp only
      rw [drawn]
      dsimp only
      rw [pushAccepted_eq room, ← List.map_append,
        inductionHypothesis _ (by rw [List.length_append]; omega)]
    · rfl

/-! ### The verifier of a stream -/

theorem allowed_codes : allowed.map UInt8.toNat =
    List.range' 65 26 ++ List.range' 97 26 ++ List.range' 48 10 ++ [45, 95, 46, 126] :=
  (congrArg _ (ascii_ofList _)).trans rfl

theorem length_allowed : allowed.length = 66 := by
  rw [← List.length_map UInt8.toNat, allowed_codes]
  rfl

theorem acceptedLimit_eq : acceptedLimit = 198 := by
  rw [acceptedLimit, allowedCount, length_allowed]

theorem nodup_allowed : allowed.Nodup := by
  refine List.Nodup.of_map UInt8.toNat ?_
  rw [allowed_codes]
  exact nodup_codes (by decide) (by decide)

/-- Three numbers below the limit leave a given remainder. -/
theorem length_filter_remainder {index : ℕ} (small : index < 66) :
    ((List.range 198).filter fun value => value % 66 = index).length = 3 := by
  have counted := Nat.count_modEq_card 198 (by decide : 0 < 66) index
  rw [Nat.count, List.countP_eq_length_filter] at counted
  simpa [Nat.ModEq, Nat.mod_eq_of_lt small] using counted

/-- Every character is written for three bytes. -/
theorem length_preimages {character : UInt8} (member : character ∈ allowed) :
    ((List.range 198).filter fun value => allowed[value % 66]? = some character).length = 3 := by
  obtain ⟨index, inside, rfl⟩ := List.mem_iff_getElem.mp member
  have same : (fun value : ℕ => decide (allowed[value % 66]? = some allowed[index])) =
      fun value => decide (value % 66 = index) := by
    funext value
    have bound : value % 66 < allowed.length := by
      rw [length_allowed]
      omega
    rw [List.getElem?_eq_getElem bound, decide_eq_decide, Option.some.injEq]
    exact nodup_allowed.getElem_inj_iff
  rw [same]
  exact length_filter_remainder (length_allowed ▸ inside)

/-- With accepted bytes behind every position the function returns a verifier of the clamped length
that has the character of the next accepted byte at each place; every character stands for the same
number of bytes. -/
theorem verifier_of_stream
    (infinitely : ∀ position, ∃ later ≥ position, (stream later).toNat < 198) (length : ℕ) :
    ∃ verifier : List UInt8,
      (∃ enough, ∀ rounds ≥ enough,
        generateCodeVerifier stream rounds length = some (.ok verifier)) ∧
      verifier.length = min (max length 43) 128 ∧
      (∃ position : ℕ → ℕ, StrictMono position ∧
        (∀ index, (stream index).toNat < 198 ↔ ∃ place, position place = index) ∧
        ∀ place < verifier.length,
          verifier[place]? = allowed[(stream (position place)).toNat % 66]?) ∧
      ∀ character ∈ allowed,
        ((List.range 198).filter fun value => allowed[value % 66]? = some character).length = 3 := by
  have accepts : ∀ index, isAccepted (stream index) = true ↔ (stream index).toNat < 198 := by
    intro index
    rw [isAccepted, acceptedLimit_eq, decide_eq_true_iff]
  have inexhaustible : Inexhaustible stream isAccepted := by
    intro position
    obtain ⟨later, behind, small⟩ := infinitely position
    exact ⟨later, behind, (accepts later).mpr small⟩
  have small : clampedLength length ≤ 128 := by
    rw [clampedLength_eq]
    exact Nat.min_le_right _ _
  obtain ⟨enough, returns⟩ := fill_eq inexhaustible (clampedLength length)
  have size : ((firstAccepted stream isAccepted (clampedLength length)).map verifierChar).length =
      clampedLength length := by
    rw [List.length_map, length_firstAccepted]
  refine ⟨(firstAccepted stream isAccepted (clampedLength length)).map verifierChar,
    ⟨enough, fun rounds often => ?_⟩, by rw [size, clampedLength_eq],
    ⟨acceptedAt stream isAccepted, acceptedAt_strictMono inexhaustible, fun index => ?_,
      fun place inside => ?_⟩, fun character => length_preimages⟩
  · have kept := @generateLoop_eq stream _ small rounds 0 [] (Nat.zero_le _)
    rw [returns rounds often] at kept
    exact kept
  · rw [← accepts, accepts_iff inexhaustible]
  · rw [size] at inside
    have bound : (stream (acceptedAt stream isAccepted place)).toNat % 66 < allowed.length := by
      rw [length_allowed]
      omega
    rw [List.getElem?_map, firstAccepted, List.getElem?_map, List.getElem?_range inside,
      Option.map_some, Option.map_some, verifierChar, allowedCount, length_allowed,
      List.getD_eq_getElem _ _ bound, List.getElem?_eq_getElem bound]

/-- A stream in which every second byte is rejected. -/
def alternatingStream (position : ℕ) : UInt8 :=
  if position % 2 = 0 then 255 else 67

theorem verifier_of_stream_alternating :
    ∃ verifier : List UInt8,
      (∃ enough, ∀ rounds ≥ enough,
        generateCodeVerifier alternatingStream rounds 64 = some (.ok verifier)) ∧
      verifier.length = 64 := by
  have infinitely : ∀ position, ∃ later ≥ position, (alternatingStream later).toNat < 198 := by
    intro position
    refine ⟨2 * position + 1, by omega, ?_⟩
    rw [alternatingStream, if_neg (by omega)]
    decide
  obtain ⟨verifier, returns, size, -⟩ := verifier_of_stream infinitely 64
  exact ⟨verifier, returns, size⟩

end Kurlyk.Utils
