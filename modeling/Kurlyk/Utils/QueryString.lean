/-
This file models `to_query_string` of `utils/http_parser.hpp`, which is written twice: once for
builds with libcurl and once for builds without. The entries of the container are given in the
order of its iteration.

The build with libcurl returns nothing for an empty container and escapes names and values. The
build without it returns the leading text for an empty container and writes names as they are. With
a libcurl that escapes as `percent_encode` does, the two agree exactly where neither difference
shows.
-/

import Mathlib.Algebra.Order.BigOperators.Group.List
import Mathlib.Algebra.Order.Group.Nat
import Mathlib.Algebra.Ring.Nat
import Mathlib.Data.List.TakeWhile
import Kurlyk.Utils.PercentEncoding

namespace Kurlyk.Utils

/-! ### The model -/

/-- `QueryParams`: the names and values of a container in the order of its iteration. -/
abbrev QueryParams := List (List UInt8 × List UInt8)

/-- What the source uses of libcurl: whether `curl_easy_init` gives a handle, and the C string that
`curl_easy_escape` returns, if it returns one. -/
structure Curl where
  easyInit : Bool
  easyEscape : List UInt8 → Option (List UInt8)

/-- `std::string(escaped)`, if there is something to append. -/
def Curl.escaped (curl : Curl) (text : List UInt8) : List UInt8 :=
  match curl.easyEscape text with
  | none => []
  | some escaped => escaped.takeWhile (· ≠ 0)

/-- The loop of the build with libcurl. -/
def appendEscaped (curl : Curl) (indexEnd : ℕ) : ℕ → QueryParams → List UInt8 → List UInt8
  | _, [], queryString => queryString
  | index, pair :: rest, queryString =>
    let written := queryString ++ curl.escaped pair.1 ++ ['='.toUInt8] ++ curl.escaped pair.2
    appendEscaped curl indexEnd (index + 1) rest
      (if index ≠ indexEnd then written ++ ['&'.toUInt8] else written)

/-- `to_query_string` with libcurl; `leading` is the argument `prefix`. -/
def toQueryStringCurl (curl : Curl) (query : QueryParams) (leading : List UInt8) : List UInt8 :=
  if query.isEmpty then []
  else if curl.easyInit then appendEscaped curl (query.length - 1) 0 query leading
  else leading

/-- The loop of the build without libcurl. -/
def appendPlain : Bool → QueryParams → List UInt8 → List UInt8
  | _, [], result => result
  | first, field :: rest, result =>
    let separated := if !first then result ++ ['&'.toUInt8] else result
    appendPlain false rest (separated ++ (field.1 ++ ['='.toUInt8] ++ percentEncode field.2))

/-- `to_query_string` without libcurl. -/
def toQueryStringPlain (query : QueryParams) (leading : List UInt8) : List UInt8 :=
  appendPlain true query leading

/-- libcurl gives a handle and escapes a byte string exactly as `percent_encode` does. -/
structure Curl.Escapes (curl : Curl) : Prop where
  init : curl.easyInit = true
  escape : ∀ text, curl.easyEscape text = some (percentEncode text)

/-! ### Joined fields -/

/-- A field with its name and value escaped. -/
def escapedField (field : List UInt8 × List UInt8) : List UInt8 :=
  percentEncode field.1 ++ ['='.toUInt8] ++ percentEncode field.2

/-- A field with only its value escaped. -/
def plainField (field : List UInt8 × List UInt8) : List UInt8 :=
  field.1 ++ ['='.toUInt8] ++ percentEncode field.2

/-- Texts with an ampersand between them. -/
def joinFields (fields : List (List UInt8)) : List UInt8 :=
  ['&'.toUInt8].intercalate fields

variable {curl : Curl} {query : QueryParams} {leading : List UInt8}

theorem zero_not_mem_percentEncode (value : List UInt8) : 0 ∉ percentEncode value := by
  have nonzero : ∀ text : List UInt8, Escaped text → 0 ∉ text := by
    intro text escaped
    induction escaped with
    | nil => exact List.not_mem_nil
    | unreserved allowed _ inductionHypothesis =>
      rw [List.mem_cons, not_or]
      refine ⟨fun same => ?_, inductionHypothesis⟩
      exact absurd (same ▸ allowed) (by decide +kernel)
    | octet first second _ inductionHypothesis =>
      simp only [List.mem_cons, not_or]
      refine ⟨by decide, fun same => ?_, fun same => ?_, inductionHypothesis⟩
      · exact absurd (same ▸ first) (by decide +kernel)
      · exact absurd (same ▸ second) (by decide +kernel)
  exact nonzero _ (escaped_percentEncode value)

theorem Curl.Escapes.escaped_eq (escapes : curl.Escapes) (text : List UInt8) :
    curl.escaped text = percentEncode text := by
  have terminated : ∀ character ∈ percentEncode text, decide (character ≠ 0) = true := by
    intro character member
    rw [decide_eq_true_iff]
    exact fun zero => zero_not_mem_percentEncode text (zero ▸ member)
  rw [Curl.escaped, escapes.escape]
  exact List.takeWhile_eq_self_iff.mpr terminated

/-- The loop with libcurl appends the escaped fields. -/
theorem appendEscaped_eq (escapes : curl.Escapes) {index indexEnd : ℕ} {query : QueryParams}
    (counted : index + query.length = indexEnd + 1) (queryString : List UInt8) :
    appendEscaped curl indexEnd index query queryString =
      queryString ++ joinFields (query.map escapedField) := by
  induction query generalizing index queryString with
  | nil => rw [appendEscaped, List.map_nil, joinFields, List.intercalate_nil, List.append_nil]
  | cons pair rest inductionHypothesis =>
    rw [List.length_cons] at counted
    rw [appendEscaped, escapes.escaped_eq, escapes.escaped_eq,
      inductionHypothesis (by omega)]
    cases rest with
    | nil =>
      have last : index = indexEnd := by simpa using counted
      rw [if_neg (not_not.mpr last)]
      simp [joinFields, escapedField]
    | cons next more =>
      have before : index ≠ indexEnd := by
        rw [List.length_cons] at counted
        omega
      rw [if_pos before]
      simp [joinFields, escapedField, List.intercalate_cons_cons]

/-- The loop without libcurl appends the fields with plain names. -/
theorem appendPlain_eq (query : QueryParams) (result : List UInt8) :
    appendPlain true query result = result ++ joinFields (query.map plainField) := by
  have later : ∀ (rest : QueryParams) (result : List UInt8), appendPlain false rest result =
      result ++ rest.flatMap fun field => '&'.toUInt8 :: plainField field := by
    intro rest
    induction rest with
    | nil => exact fun result => (List.append_nil result).symm
    | cons field more inductionHypothesis =>
      intro result
      rw [appendPlain, inductionHypothesis]
      simp [plainField]
  have joined : ∀ (rest : QueryParams) (field : List UInt8 × List UInt8),
      joinFields ((field :: rest).map plainField) =
        plainField field ++ rest.flatMap fun field => '&'.toUInt8 :: plainField field := by
    intro rest
    induction rest with
    | nil => exact fun field => by simp [joinFields]
    | cons next more inductionHypothesis =>
      intro field
      rw [List.map_cons, List.map_cons, joinFields, List.intercalate_cons_cons, ← List.map_cons,
        ← joinFields, inductionHypothesis]
      simp
  cases query with
  | nil => exact (List.append_nil result).symm
  | cons field rest =>
    rw [appendPlain, later, joined]
    simp [plainField]

theorem toQueryStringCurl_eq (escapes : curl.Escapes) (query : QueryParams)
    (leading : List UInt8) : toQueryStringCurl curl query leading =
      if query = [] then [] else leading ++ joinFields (query.map escapedField) := by
  unfold toQueryStringCurl
  by_cases empty : query = []
  · rw [if_pos (List.isEmpty_iff.mpr empty), if_pos empty]
  · have counted : 0 + query.length = query.length - 1 + 1 := by
      have := List.length_pos_iff.mpr empty
      omega
    rw [if_neg (by rwa [List.isEmpty_iff]), if_pos escapes.init, if_neg empty,
      appendEscaped_eq escapes counted]

/-! ### Where the builds agree -/

theorem percentEncode_eq_self {value : List UInt8} (unescaped : ∀ chr ∈ value, chr ∈ unreserved) :
    percentEncode value = value := by
  induction value with
  | nil => rfl
  | cons chr rest inductionHypothesis =>
    obtain ⟨first, others⟩ := List.forall_mem_cons.mp unescaped
    have single : encodeCharacter chr = [chr] :=
      if_pos ((mem_unreserved_iff chr).mp first)
    rw [percentEncode, List.flatMap_cons, single, ← percentEncode, inductionHypothesis others]
    rfl

/-- Encoding makes no text shorter, and a text with a reserved character longer. -/
theorem length_le_percentEncode (value : List UInt8) :
    value.length ≤ (percentEncode value).length ∧
      ((∃ chr ∈ value, chr ∉ unreserved) → value.length < (percentEncode value).length) := by
  induction value with
  | nil => exact ⟨Nat.le_refl _, fun ⟨_, member, _⟩ => absurd member List.not_mem_nil⟩
  | cons chr rest inductionHypothesis =>
    obtain ⟨notShorter, longer⟩ := inductionHypothesis
    rw [percentEncode, List.flatMap_cons, ← percentEncode, List.length_append, List.length_cons]
    by_cases unescaped : isUnescaped chr = true
    · have single : (encodeCharacter chr).length = 1 := by rw [encodeCharacter, if_pos unescaped]; rfl
      rw [single]
      refine ⟨by omega, ?_⟩
      rintro ⟨other, member, reserved⟩
      rcases List.mem_cons.mp member with rfl | later
      · exact absurd ((mem_unreserved_iff other).mpr unescaped) reserved
      · have := longer ⟨other, later, reserved⟩
        omega
    · have triple : (encodeCharacter chr).length = 3 := by
        rw [encodeCharacter, if_neg unescaped]
        rfl
      rw [triple]
      exact ⟨by omega, fun _ => by omega⟩

/-- The length of joined fields depends on the sum of their lengths. -/
theorem length_joinFields (fields : List (List UInt8)) :
    (joinFields fields).length = (fields.map List.length).sum + (fields.length - 1) := by
  induction fields with
  | nil => rfl
  | cons field rest inductionHypothesis =>
    cases rest with
    | nil => simp [joinFields]
    | cons next more =>
      rw [joinFields, List.intercalate_cons_cons, ← joinFields, List.length_append,
        List.length_append, inductionHypothesis]
      simp
      omega

/-- The container is empty and the leading text is too, or it is not empty and its names hold only
unreserved characters. -/
def BuildsAgree (query : QueryParams) (leading : List UInt8) : Prop :=
  if query = [] then leading = []
  else ∀ field ∈ query, ∀ chr ∈ field.1, chr ∈ unreserved

/-- The two builds return the same string exactly when neither the leading text nor an escaped name
tells them apart. -/
theorem builds_agree_iff (escapes : curl.Escapes) (query : QueryParams) (leading : List UInt8) :
    toQueryStringCurl curl query leading = toQueryStringPlain query leading ↔
      BuildsAgree query leading := by
  rw [toQueryStringCurl_eq escapes, toQueryStringPlain, appendPlain_eq, BuildsAgree]
  by_cases empty : query = []
  · rw [if_pos empty, if_pos empty, empty, List.map_nil, joinFields, List.intercalate_nil,
      List.append_nil]
    exact eq_comm
  · rw [if_neg empty, if_neg empty, List.append_cancel_left_eq]
    constructor
    · intro same
      -- Both strings have the same separators, so their fields have the same total length.
      have total := congrArg List.length same
      rw [length_joinFields, length_joinFields, List.length_map, List.length_map,
        Nat.add_right_cancel_iff, List.map_map, List.map_map] at total
      by_contra reserved
      push Not at reserved
      obtain ⟨field, member, chr, inside, escaped⟩ := reserved
      refine absurd total (Nat.ne_of_gt (List.sum_lt_sum _ _ ?_ ⟨field, member, ?_⟩))
      · intro other _
        have := (length_le_percentEncode other.1).1
        simp only [Function.comp_apply, plainField, escapedField, List.length_append]
        omega
      · have := (length_le_percentEncode field.1).2 ⟨chr, inside, escaped⟩
        simp only [Function.comp_apply, plainField, escapedField, List.length_append]
        omega
    · intro names
      have fields : query.map escapedField = query.map plainField := by
        refine List.map_congr_left fun field member => ?_
        rw [escapedField, percentEncode_eq_self (names field member), plainField]
      rw [fields]

/-- A libcurl that escapes as `percent_encode` does. -/
def faithfulCurl : Curl where
  easyInit := true
  easyEscape text := some (percentEncode text)

theorem faithfulCurl_escapes : faithfulCurl.Escapes :=
  ⟨rfl, fun _ => rfl⟩

theorem builds_agree_iff_oneField : faithfulCurl.Escapes ∧
    toQueryStringCurl faithfulCurl [(ascii "q", ascii "a b")] (ascii "?") =
      toQueryStringPlain [(ascii "q", ascii "a b")] (ascii "?") := by
  refine ⟨faithfulCurl_escapes, (builds_agree_iff faithfulCurl_escapes _ _).mpr ?_⟩
  unfold BuildsAgree
  decide +kernel

/-- A name with a space is escaped by one build only, and the leading text of an empty container is
kept by the other only. -/
theorem builds_differ :
    (faithfulCurl.Escapes ∧
      toQueryStringCurl faithfulCurl [(ascii "a b", ascii "c")] [] = ascii "a%20b=c" ∧
      toQueryStringPlain [(ascii "a b", ascii "c")] [] = ascii "a b=c" ∧
      toQueryStringCurl faithfulCurl [] (ascii "?") = [] ∧
      toQueryStringPlain [] (ascii "?") = ascii "?") ∧
      ¬ ∀ (curl : Curl) (query : QueryParams) (leading : List UInt8), curl.Escapes →
        toQueryStringCurl curl query leading = toQueryStringPlain query leading := by
  refine ⟨⟨faithfulCurl_escapes, by decide +kernel, by decide +kernel, by decide +kernel,
    by decide +kernel⟩, fun agree => ?_⟩
  exact absurd (agree faithfulCurl [(ascii "a b", ascii "c")] [] faithfulCurl_escapes)
    (by decide +kernel)

end Kurlyk.Utils
