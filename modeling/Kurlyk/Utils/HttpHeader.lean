/-
This file models how a line of response headers gets into the header map:
`parse_http_header_pair` of `utils/http_parser.hpp` and
`HttpRequestHandler::parse_http_response_header`, which libcurl calls with the line.

Behind the colon the spaces are dropped, at the end the characters of the line break. Tabs, and
blanks before the line break, stay in the value.
-/

import Mathlib.Data.List.DropRight
import Kurlyk.Lib.Text
import Kurlyk.Utils.Characters

namespace Kurlyk.Utils

open Text

/-! ### The model -/

/-- `Headers`: the entries of the map, in the order in which they are emplaced. -/
abbrev Headers := List (List UInt8 × List UInt8)

def isLineBreak (ch : UInt8) : Bool :=
  ch = '\r'.toUInt8 || ch = '\n'.toUInt8

/-- `(end_pos != npos) ? header.substr(end_pos) : std::string()`. -/
def headerText (header : List UInt8) (startPos : ℕ) : Except OutOfRange (List UInt8) :=
  match findFirstNotOf header (ascii " ") startPos with
  | some endPos => substrFrom header endPos
  | none => .ok []

/-- `parse_http_header_pair`: what `key` and `value` are afterwards. -/
def parseHttpHeaderPair (buffer : List UInt8) (size : ℕ) (key value : List UInt8) :
    Except OutOfRange (List UInt8 × List UInt8) :=
  let header := buffer.take size
  if header.length < 3 then return (key, value)
  else
    match findFirstOf header (ascii ":") 0 with
    | none => return (key, value)
    | some colonPos =>
      let startPos := colonPos + 1
      if colonPos = 0 then return (key, value)
      else do
        let name ← substr header 0 colonPos
        let text ← headerText header startPos
        return (name, text.rdropWhile isLineBreak)

/-- `parse_http_response_header`: what it returns, and the header map it leaves. -/
def parseHttpResponseHeader (buffer : List UInt8) (size nitems : ℕ) (headers : Headers) :
    Except OutOfRange (ℕ × Headers) := do
  let bufferSize := size * nitems
  let (key, value) ← parseHttpHeaderPair buffer bufferSize [] []
  return (bufferSize, if key.isEmpty then headers else headers ++ [(key, value)])

/-! ### One line -/

variable {buffer name text : List UInt8} {size : ℕ}

theorem headerText_eq (header : List UInt8) (startPos : ℕ) :
    headerText header startPos = .ok ((header.drop startPos).dropWhile (· ∈ ascii " ")) :=
  substrFrom_findFirstNotOf header (ascii " ") startPos

/-- A line is split at its first colon. -/
theorem parseHttpHeaderPair_of_colon (line : buffer.take size = name ++ ':'.toUInt8 :: text)
    (long : 3 ≤ (buffer.take size).length) (named : name ≠ []) (plain : ':'.toUInt8 ∉ name)
    (key value : List UInt8) :
    parseHttpHeaderPair buffer size key value =
      .ok (name, (text.dropWhile (· ∈ ascii " ")).rdropWhile isLineBreak) := by
  have colon : findFirstOf (buffer.take size) (ascii ":") 0 = some name.length := by
    have found := findChar_eq_some (List.drop_zero.trans line) plain
    rwa [Nat.zero_add] at found
  have cut : substr (buffer.take size) 0 name.length = .ok name := by
    rw [substr_of_le (Nat.zero_le _), List.drop_zero, line, List.take_left]
  have behind : (buffer.take size).drop (name.length + 1) = text := by
    rw [line, ← List.drop_drop, List.drop_left, List.drop_succ_cons, List.drop_zero]
  rw [parseHttpHeaderPair]
  dsimp only
  rw [if_neg (by omega), colon]
  dsimp only
  rw [if_neg (fun none => named (List.length_eq_zero_iff.mp none)), cut, ok_bind,
    headerText_eq, behind, ok_bind]
  rfl

/-- Nothing is read behind the end of the buffer. -/
theorem parseHttpHeaderPair_ok (buffer : List UInt8) (size : ℕ) (key value : List UInt8) :
    ∃ pair, parseHttpHeaderPair buffer size key value = .ok pair := by
  rw [parseHttpHeaderPair]
  dsimp only
  split
  · exact ⟨_, rfl⟩
  · split
    · exact ⟨_, rfl⟩
    · split
      · exact ⟨_, rfl⟩
      · rw [substr_of_le (Nat.zero_le _), ok_bind, headerText_eq, ok_bind]
        exact ⟨_, rfl⟩

/-- For every buffer the full size is returned and at most one pair is added. -/
theorem parseHttpResponseHeader_ok (buffer : List UInt8) (size nitems : ℕ) (headers : Headers) :
    ∃ added : Option (List UInt8 × List UInt8),
      parseHttpResponseHeader buffer size nitems headers =
        .ok (size * nitems, headers ++ added.toList) := by
  obtain ⟨⟨key, value⟩, parsed⟩ := parseHttpHeaderPair_ok buffer (size * nitems) [] []
  rw [parseHttpResponseHeader, parsed, ok_bind]
  cases key with
  | nil => exact ⟨none, by rw [Option.toList_none, List.append_nil]; rfl⟩
  | cons character rest => exact ⟨some (character :: rest, value), rfl⟩

/-! ### Header field lines -/

/-- Spaces and tabs. -/
def IsBlank (ch : UInt8) : Prop :=
  ch = ' '.toUInt8 ∨ ch = '\t'.toUInt8

instance : DecidablePred IsBlank :=
  fun ch => inferInstanceAs (Decidable (ch = ' '.toUInt8 ∨ ch = '\t'.toUInt8))

/-- A header field line: a name, a colon, and a value between blanks. -/
structure FieldLine where
  name : List UInt8
  before : List UInt8
  value : List UInt8
  behind : List UInt8
  named : name ≠ []
  plain : ':'.toUInt8 ∉ name
  before_blank : ∀ ch ∈ before, IsBlank ch
  behind_blank : ∀ ch ∈ behind, IsBlank ch
  value_begins : ∀ ch ∈ value.head?, ¬ IsBlank ch ∧ isLineBreak ch = false
  value_ends : ∀ ch ∈ value.getLast?, ¬ IsBlank ch ∧ isLineBreak ch = false

namespace FieldLine

/-- What stands between the colon and the line break. -/
def content (line : FieldLine) : List UInt8 :=
  line.before ++ line.value ++ line.behind

/-- The bytes of the line. -/
def bytes (line : FieldLine) : List UInt8 :=
  line.name ++ ':'.toUInt8 :: (line.content ++ ascii "\r\n")

theorem isLineBreak_of_isBlank {ch : UInt8} (blank : IsBlank ch) : isLineBreak ch = false := by
  rcases blank with rfl | rfl
  · decide
  · decide

/-- The content does not end with a line break of its own. -/
theorem content_ends (line : FieldLine) : ∀ ch ∈ line.content.getLast?, isLineBreak ch = false := by
  intro ch last
  rw [content, List.getLast?_append, List.getLast?_append] at last
  cases behind : line.behind.getLast? with
  | some other =>
    rw [behind, Option.some_or, Option.mem_some_iff] at last
    subst last
    exact isLineBreak_of_isBlank (line.behind_blank _ (List.mem_of_getLast? behind))
  | none =>
    rw [behind, Option.none_or] at last
    cases value : line.value.getLast? with
    | some other =>
      rw [value, Option.some_or, Option.mem_some_iff] at last
      subst last
      exact (line.value_ends _ value).2
    | none =>
      rw [value, Option.none_or] at last
      exact isLineBreak_of_isBlank (line.before_blank ch (List.mem_of_getLast? last))

/-- What is stored of the text behind the colon. -/
theorem trimmed (line : FieldLine) :
    ((line.content ++ ascii "\r\n").dropWhile (· ∈ ascii " ")).rdropWhile isLineBreak =
      line.content.dropWhile (· ∈ ascii " ") := by
  have kept : (line.content ++ ascii "\r\n").dropWhile (· ∈ ascii " ") =
      line.content.dropWhile (· ∈ ascii " ") ++ ascii "\r\n" := by
    rw [List.dropWhile_append]
    split
    · rename_i empty
      rw [List.isEmpty_iff.mp empty, List.nil_append]
      decide +kernel
    · rfl
  have ends : (line.content.dropWhile (· ∈ ascii " ")).rdropWhile isLineBreak =
      line.content.dropWhile (· ∈ ascii " ") := by
    refine List.rdropWhile_eq_self_iff.mpr fun some breaks => ?_
    have suffix := List.dropWhile_suffix (l := line.content) (· ∈ ascii " ")
    have last := line.content_ends _ (List.getLast?_eq_some_getLast (suffix.ne_nil some))
    rw [← suffix.getLast some, Bool.eq_false_iff] at last
    exact last breaks
  have lineBreak : ascii "\r\n" = ['\r'.toUInt8] ++ ['\n'.toUInt8] := by decide
  rw [kept, lineBreak, ← List.append_assoc, List.rdropWhile_concat_pos _ _ _ (by decide),
    List.rdropWhile_concat_pos _ _ _ (by decide), ends]

/-- The pair that a line adds. -/
theorem parseHttpResponseHeader_bytes (line : FieldLine) {size nitems : ℕ}
    (whole : size * nitems = line.bytes.length) (headers : Headers) :
    parseHttpResponseHeader line.bytes size nitems headers =
      .ok (line.bytes.length,
        headers ++ [(line.name, line.content.dropWhile (· ∈ ascii " "))]) := by
  have all : line.bytes.take (size * nitems) = line.bytes := by rw [whole, List.take_length]
  have long : 3 ≤ (line.bytes.take (size * nitems)).length := by
    have named := List.length_pos_of_ne_nil line.named
    have two : (ascii "\r\n").length = 2 := by decide
    rw [all, bytes, List.length_append, List.length_cons, List.length_append, two]
    omega
  have parsed := parseHttpHeaderPair_of_colon all long line.named line.plain [] []
  rw [line.trimmed] at parsed
  have notEmpty : line.name.isEmpty = false := by simpa using line.named
  rw [parseHttpResponseHeader, parsed, ok_bind]
  dsimp only
  rw [notEmpty, whole]
  rfl

/-- With spaces only before the value and nothing behind it, the value is stored. -/
theorem content_of_spaces (line : FieldLine)
    (spaces : ∀ ch ∈ line.before, ch = ' '.toUInt8) (nothing : line.behind = []) :
    line.content.dropWhile (· ∈ ascii " ") = line.value := by
  have dropped : line.before.dropWhile (· ∈ ascii " ") = [] := by
    rw [List.dropWhile_eq_nil_iff]
    intro ch member
    rw [spaces ch member]
    decide
  rw [content, nothing, List.append_nil, List.dropWhile_append, dropped,
    if_pos List.isEmpty_nil]
  cases begins : line.value with
  | nil => rfl
  | cons ch rest =>
    have first := (line.value_begins ch (by rw [begins]; rfl)).1
    rw [List.dropWhile_cons_of_neg]
    rw [decide_eq_true_iff]
    intro member
    exact first (Or.inl (List.mem_singleton.mp member))

end FieldLine

theorem mem_space : (fun ch => decide (ch ∈ ascii " ")) = fun ch => decide (ch = ' '.toUInt8) := by
  funext ch
  have space : ascii " " = [' '.toUInt8] := by decide
  rw [space]
  exact decide_eq_decide.mpr List.mem_singleton

/-- A header field line adds one pair: its name, and what stands behind the colon without its
leading spaces and the line break, which is the value when there is nothing but spaces before it and
nothing behind it. Every buffer is taken as a whole and adds at most one pair. -/
theorem header_line_stored :
    (∀ (line : FieldLine) (size nitems : ℕ) (headers : Headers),
      size * nitems = line.bytes.length →
        parseHttpResponseHeader line.bytes size nitems headers =
          .ok (line.bytes.length,
            headers ++ [(line.name, line.content.dropWhile (· = ' '.toUInt8))])) ∧
      (∀ line : FieldLine, (∀ ch ∈ line.before, ch = ' '.toUInt8) → line.behind = [] →
        line.content.dropWhile (· = ' '.toUInt8) = line.value) ∧
      ∀ (buffer : List UInt8) (size nitems : ℕ) (headers : Headers),
        ∃ added : Option (List UInt8 × List UInt8),
          parseHttpResponseHeader buffer size nitems headers =
            .ok (size * nitems, headers ++ added.toList) := by
  rw [← mem_space]
  exact ⟨fun line size nitems headers whole => line.parseHttpResponseHeader_bytes whole headers,
    fun line => line.content_of_spaces, parseHttpResponseHeader_ok⟩

/-- A line with the name `X` and the value `v`. -/
def exampleLine (before behind : List UInt8)
    (blank : (before ++ behind).all (fun ch => ch = ' '.toUInt8 ∨ ch = '\t'.toUInt8) = true) :
    FieldLine where
  name := ascii "X"
  before := before
  value := ascii "v"
  behind := behind
  named := by decide
  plain := by decide
  before_blank ch member :=
    of_decide_eq_true (List.all_eq_true.mp blank ch (List.mem_append_left behind member))
  behind_blank ch member :=
    of_decide_eq_true (List.all_eq_true.mp blank ch (List.mem_append_right before member))
  value_begins := by
    intro ch first
    obtain rfl : 'v'.toUInt8 = ch := Option.some.inj first
    decide
  value_ends := by
    intro ch last
    obtain rfl : 'v'.toUInt8 = ch := Option.some.inj last
    decide

theorem header_line_stored_oneSpace :
    parseHttpResponseHeader (ascii "X: v\r\n") 1 6 [] = .ok (6, [(ascii "X", ascii "v")]) :=
  header_line_stored.1 (exampleLine (ascii " ") [] (by decide)) 1 6 [] (by decide)

/-- A tab before the value and a blank behind it stay in what is stored. -/
theorem blanks_kept :
    (exampleLine (ascii "\t") [] (by decide)).bytes = ascii "X:\tv\r\n" ∧
      parseHttpResponseHeader (ascii "X:\tv\r\n") 1 6 [] =
        .ok (6, [(ascii "X", ascii "\tv")]) ∧
      parseHttpResponseHeader (ascii "X: v \r\n") 1 7 [] =
        .ok (7, [(ascii "X", ascii "v ")]) ∧
      ¬ ∀ (line : FieldLine) (headers : Headers),
        parseHttpResponseHeader line.bytes 1 line.bytes.length headers =
          .ok (line.bytes.length, headers ++ [(line.name, line.value)]) := by
  refine ⟨by decide +kernel, by decide +kernel, by decide +kernel, fun stores => ?_⟩
  exact absurd (stores (exampleLine (ascii "\t") [] (by decide)) [])
    (by decide +kernel)

end Kurlyk.Utils
