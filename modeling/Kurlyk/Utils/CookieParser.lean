/-
This file models `to_cookie_string` and `parse_cookie` of `utils/http_parser.hpp`. A container of
cookies is the list of its entries, in the order of its iteration for the writer and in the order of
`emplace` for the parser.

The parser is one unbounded loop. Its pass is a function of the position it starts at, and the loop
repeats the pass as often as it is allowed to; that the passes of `parse_cookie` are enough, and
that no pass throws, is proved here and not assumed.
-/

import Kurlyk.Lib.Text
import Kurlyk.Utils.Characters

namespace Kurlyk.Utils

open Text

/-! ### The model -/

/-- `Cookie`. -/
structure Cookie where
  name : List UInt8
  value : List UInt8
  path : List UInt8 := []
  expirationDate : UInt64 := 0
deriving DecidableEq

/-- The loop of `to_cookie_string`. -/
def appendCookies : Bool → List Cookie → List UInt8 → List UInt8
  | _, [], result => result
  | first, cookie :: rest, result =>
    let separated := if first then result else result ++ ascii "; "
    let named := separated ++ (cookie.name ++ ascii "=" ++ cookie.value)
    let located := if cookie.path.isEmpty then named else named ++ (ascii "; Path=" ++ cookie.path)
    let dated := if cookie.expirationDate ≠ 0 then
      located ++ (ascii "; Expires=" ++ ascii cookie.expirationDate.toNat.repr) else located
    appendCookies false rest dated

/-- `to_cookie_string` of `Cookies`. -/
def toCookieString (cookies : List Cookie) : List UInt8 :=
  appendCookies true cookies []

def hostPrefix : List UInt8 := ascii "__Host-"

def optionNames : List (List UInt8) :=
  [ascii "expires", ascii "max-age", ascii "path", ascii "domain", ascii "samesite"]

def flagNames : List (List UInt8) :=
  [ascii "secure", ascii "httponly"]

/-- What the parser takes a name for: the name of a cookie, of an attribute with a value, or of an
attribute without. -/
inductive NameKind where
  | cookie (name : List UInt8)
  | option
  | flag
deriving DecidableEq

/-- The name behind its first `-`, when it is longer than `host_prefix` and begins with `__`. -/
def strippedName (name : List UInt8) : Except OutOfRange (Option (List UInt8)) :=
  if name.length > hostPrefix.length then do
    let front ← substr name 0 2
    if front = ascii "__" then
      match findFirstOf name (ascii "-") 0 with
      | none => return some name
      | some prefixPos =>
        return some (← substr name (prefixPos + 1) (sizeSub (sizeSub name.length prefixPos) 1))
    else return none
  else return none

def classifyName (name : List UInt8) : Except OutOfRange NameKind := do
  match ← strippedName name with
  | some stripped => return .cookie stripped
  | none =>
    if optionNames.any (caseInsensitiveEqual name) then return .option
    else if flagNames.any (caseInsensitiveEqual name) then return .flag
    else return .cookie name

/-- What is emplaced for a name and a value. -/
def NameKind.emplaced (kind : NameKind) (value : List UInt8) : List Cookie :=
  match kind with
  | .cookie name => [{ name, value }]
  | _ => []

/-- How a pass of the loop ends: the next one starts at a position, or the loop is left. -/
inductive Pass where
  | next (startPos : ℕ) (found : List Cookie)
  | done (found : List Cookie)
deriving DecidableEq

/-- One pass of the loop of `parse_cookie`; `cookie` ends with the `;` that the function appends.
Positions behind the end are below `2 ^ 64` for every string there is. -/
def parseCookiePass (cookie : List UInt8) (startPos : ℕ) : Except OutOfRange Pass :=
  match findFirstOf cookie (ascii "=;") startPos with
  | none => return .done []
  | some separatorPos => do
    let name ← substr cookie startPos (sizeSub separatorPos startPos)
    match ← classifyName name with
    | .flag =>
      let separator ← charAt cookie separatorPos
      return .next (if separator = some ';'.toUInt8 then separatorPos + 2 else separatorPos + 1) []
    | kind =>
      match find cookie (ascii "; ") (separatorPos + 1) with
      | none =>
        -- For a separator at the very end the count wraps around.
        let value ← substr cookie (separatorPos + 1) (sizeSub (sizeSub cookie.length separatorPos) 2)
        return .done (kind.emplaced value)
      | some endPos =>
        let value ← substr cookie (separatorPos + 1) (sizeSub (sizeSub endPos separatorPos) 1)
        return .next (endPos + 2) (kind.emplaced value)

/-- The loop, stopped after so many passes. -/
def parseCookieLoop (cookie : List UInt8) :
    ℕ → ℕ → List Cookie → Option (Except OutOfRange (List Cookie))
  | 0, _, _ => none
  | passes + 1, startPos, cookies =>
    match parseCookiePass cookie startPos with
    | .error exception => some (.error exception)
    | .ok (.done found) => some (.ok (cookies ++ found))
    | .ok (.next further found) => parseCookieLoop cookie passes further (cookies ++ found)

/-- `parse_cookie`, with one pass for every position and one more. -/
def parseCookie (cookie : List UInt8) : Option (Except OutOfRange (List Cookie)) :=
  parseCookieLoop (cookie ++ ascii ";") (cookie.length + 2) 0 []

/-! ### One pass -/

/-- The names that the parser shortens. -/
def isShortened (name : List UInt8) : Bool :=
  decide (hostPrefix.length < name.length) && decide (name.take 2 = ascii "__")

/-- The kind of a name. -/
def kindOf (name : List UInt8) : NameKind :=
  if isShortened name then .cookie ((after '-'.toUInt8 name).getD name)
  else if optionNames.any (caseInsensitiveEqual name) then .option
  else if flagNames.any (caseInsensitiveEqual name) then .flag
  else .cookie name

theorem not_mem_of_not_mem_ascii {character : UInt8} {text : List UInt8}
    (absent : character ∉ text) : ∀ other ∈ text, other ∉ [character] := by
  intro other member inside
  rw [List.mem_singleton] at inside
  exact absent (inside ▸ member)

theorem strippedName_eq (name : List UInt8) : strippedName name =
    .ok (if isShortened name then some ((after '-'.toUInt8 name).getD name) else none) := by
  have set : ascii "-" = ['-'.toUInt8] := by decide
  unfold strippedName isShortened
  by_cases long : hostPrefix.length < name.length
  · rw [if_pos long, substr_of_le (Nat.zero_le _), List.drop_zero, ok_bind, set]
    by_cases marked : name.take 2 = ascii "__"
    · simp only [long, marked, decide_true, Bool.and_self, if_true]
      by_cases dash : '-'.toUInt8 ∈ name
      · obtain ⟨front, rest, whole, absent⟩ := List.eq_append_cons_of_mem dash
        have left : name.drop 0 = front ++ '-'.toUInt8 :: rest := whole
        have inside := length_of_drop left
        have found := findFirstOf_eq_some left (not_mem_of_not_mem_ascii absent)
          List.mem_cons_self
        have behind : name.drop (0 + front.length + 1) = rest := by
          rw [← List.drop_drop, drop_of_drop left, List.drop_succ_cons, List.drop_zero]
        have count : sizeSub (sizeSub name.length (0 + front.length)) 1 = rest.length := by
          unfold sizeSub
          split_ifs <;> omega
        have cut : substr name (0 + front.length + 1)
            (sizeSub (sizeSub name.length (0 + front.length)) 1) = .ok rest := by
          rw [substr_of_le (by omega), count, behind, List.take_length]
        have dashed : after '-'.toUInt8 name = some rest := whole ▸ after_append_cons absent
        rw [found, dashed]
        dsimp only
        rw [cut]
        rfl
      · rw [findFirstOf_eq_none (not_mem_of_not_mem_ascii dash), after_of_not_mem dash]
        rfl
    · simp only [marked, decide_false, Bool.and_false, Bool.false_eq_true, if_false]
      rfl
  · rw [if_neg long]
    simp only [long, decide_false, Bool.false_and, Bool.false_eq_true, if_false]
    rfl

theorem classifyName_eq (name : List UInt8) : classifyName name = .ok (kindOf name) := by
  rw [classifyName, strippedName_eq, ok_bind, kindOf]
  by_cases shortened : isShortened name = true
  · rw [if_pos shortened, if_pos shortened]
    rfl
  · rw [if_neg shortened, if_neg shortened]
    dsimp only
    split_ifs <;> rfl

section Pass

variable {cookie name rest : List UInt8} {startPos : ℕ} {separator : UInt8}

/-- The characters that end a name. -/
theorem mem_separators {character : UInt8} :
    character ∈ ascii "=;" ↔ character = '='.toUInt8 ∨ character = ';'.toUInt8 := by
  rw [show ascii "=;" = ['='.toUInt8, ';'.toUInt8] by decide, List.mem_cons, List.mem_singleton]

/-- A pass that finds no separator is the last one. -/
theorem pass_of_not_found (nothing : findFirstOf cookie (ascii "=;") startPos = none) :
    parseCookiePass cookie startPos = .ok (.done []) := by
  rw [parseCookiePass, nothing]
  rfl

/-- What a pass does with the text that is left, when it begins with a name. -/
theorem pass_eq (left : cookie.drop startPos = name ++ separator :: rest)
    (plain : ∀ character ∈ name, character ∉ ascii "=;") (ends : separator ∈ ascii "=;") :
    parseCookiePass cookie startPos = .ok
      (match kindOf name with
      | .flag => .next (startPos + name.length + if separator = ';'.toUInt8 then 2 else 1) []
      | kind =>
        match occurrence (ascii "; ") rest with
        | none => .done (kind.emplaced rest.dropLast)
        | some count =>
          .next (startPos + name.length + 1 + count + 2) (kind.emplaced (rest.take count))) := by
  have length := length_of_drop left
  have inside : startPos ≤ cookie.length := by omega
  have behind : cookie.drop (startPos + name.length + 1) = rest := by
    rw [← List.drop_drop, drop_of_drop left, List.drop_succ_cons, List.drop_zero]
  have here : cookie[startPos + name.length]? = some separator := by
    rw [← List.getElem?_drop, left, List.getElem?_append_right (Nat.le_refl _), Nat.sub_self]
    rfl
  have searched : find cookie (ascii "; ") (startPos + name.length + 1) =
      (occurrence (ascii "; ") rest).map (startPos + name.length + 1 + ·) := by
    rw [find, if_pos (by omega), behind]
  -- When nothing stands behind the separator, the count wraps around and takes nothing.
  have last : rest.take (sizeSub (sizeSub cookie.length (startPos + name.length)) 2) =
      rest.dropLast := by
    rw [List.dropLast_eq_take]
    cases rest with
    | nil => rw [List.take_nil, List.take_nil]
    | cons character more =>
      have count : sizeSub (sizeSub cookie.length (startPos + name.length)) 2 =
          (character :: more).length - 1 := by
        rw [List.length_cons] at length ⊢
        unfold sizeSub
        split_ifs <;> omega
      rw [count]
  have middle (count : ℕ) : sizeSub (sizeSub (startPos + name.length + 1 + count)
      (startPos + name.length)) 1 = count := by
    unfold sizeSub
    split_ifs <;> omega
  rw [parseCookiePass, findFirstOf_eq_some left plain ends]
  simp only [substr_between left inside, ok_bind, classifyName_eq, charAt,
    if_pos (show startPos + name.length ≤ cookie.length by omega), here, searched,
    substr_of_le (show startPos + name.length + 1 ≤ cookie.length by omega), behind]
  cases kindOf name with
  | flag =>
    by_cases semicolon : separator = ';'.toUInt8
    · simp only [semicolon, if_true]
      rfl
    · simp only [Option.some.injEq, semicolon, if_false]
      rfl
  | option =>
    cases occurrence (ascii "; ") rest with
    | none => rfl
    | some count => rfl
  | cookie stripped =>
    cases occurrence (ascii "; ") rest with
    | none =>
      simp only [Option.map_none, last]
      rfl
    | some count =>
      simp only [Option.map_some, middle]
      rfl

/-- Every pass ends without an exception, and one that is not the last started within the text and
goes on further behind. -/
theorem pass_ends (cookie : List UInt8) (startPos : ℕ) :
    ∃ pass, parseCookiePass cookie startPos = .ok pass ∧
      ∀ further found, pass = .next further found →
        startPos < cookie.length ∧ startPos < further := by
  cases found : findFirstOf cookie (ascii "=;") startPos with
  | none => exact ⟨_, pass_of_not_found found, fun _ _ impossible => by cases impossible⟩
  | some separatorPos =>
    obtain ⟨name, separator, rest, left, plain, ends, rfl⟩ := split_of_findFirstOf found
    have length := length_of_drop left
    refine ⟨_, pass_eq left plain ends, fun further cookies same => ⟨by omega, ?_⟩⟩
    split at same
    · rw [← (Pass.next.inj same).1]
      split_ifs <;> omega
    · split at same
      · cases same
      · rw [← (Pass.next.inj same).1]
        omega

end Pass

/-! ### The loop -/

/-- The cookies that the loop finds from a position on. -/
inductive Finds (cookie : List UInt8) : ℕ → List Cookie → Prop where
  | last {startPos : ℕ} {found : List Cookie}
    (pass : parseCookiePass cookie startPos = .ok (.done found)) : Finds cookie startPos found
  | more {startPos further : ℕ} {found rest : List Cookie}
    (pass : parseCookiePass cookie startPos = .ok (.next further found))
    (later : Finds cookie further rest) : Finds cookie startPos (found ++ rest)

/-- From every position on the loop comes to an end. -/
theorem exists_finds (cookie : List UInt8) (startPos : ℕ) : ∃ found, Finds cookie startPos found := by
  induction measure : cookie.length + 1 - startPos using Nat.strongRecOn
    generalizing startPos with
  | ind left inductionHypothesis =>
    obtain ⟨pass, ended, advances⟩ := pass_ends cookie startPos
    cases pass with
    | done found => exact ⟨found, .last ended⟩
    | next further found =>
      obtain ⟨inside, forward⟩ := advances further found rfl
      obtain ⟨rest, later⟩ := inductionHypothesis _ (by omega) further rfl
      exact ⟨found ++ rest, .more ended later⟩

/-- With a pass for every position that is left, the loop is not stopped before its end. -/
theorem Finds.loop {cookie : List UInt8} {startPos : ℕ} {found : List Cookie}
    (finds : Finds cookie startPos found) (passes : ℕ) (cookies : List Cookie)
    (enough : cookie.length < startPos + passes) (once : 0 < passes) :
    parseCookieLoop cookie passes startPos cookies = some (.ok (cookies ++ found)) := by
  induction finds generalizing passes cookies with
  | last pass =>
    obtain ⟨more, rfl⟩ := Nat.exists_eq_succ_of_ne_zero (Nat.ne_of_gt once)
    rw [parseCookieLoop, pass]
  | @more startPos further found rest pass later inductionHypothesis =>
    obtain ⟨more, rfl⟩ := Nat.exists_eq_succ_of_ne_zero (Nat.ne_of_gt once)
    obtain ⟨same, ended, advances⟩ := pass_ends cookie startPos
    obtain ⟨inside, forward⟩ := advances further found (Except.ok.inj (ended.symm.trans pass))
    rw [parseCookieLoop, pass]
    dsimp only
    rw [inductionHypothesis more _ (by omega) (by omega), List.append_assoc]

/-- What `parse_cookie` returns. -/
theorem Finds.parseCookie {text : List UInt8} {found : List Cookie}
    (finds : Finds (text ++ ascii ";") 0 found) : parseCookie text = some (.ok found) := by
  have length : (text ++ ascii ";").length = text.length + 1 := List.length_append
  exact finds.loop _ [] (by omega) (by omega)

/-- For every text `parse_cookie` returns: no pass throws, every pass that is not the last moves the
start position forward, and the passes come to an end. The start position may move behind the end,
and the length of the last value may wrap around. -/
theorem parse_cookie_terminates :
    (∀ text : List UInt8,
      (∀ startPos, ∃ pass, parseCookiePass (text ++ ascii ";") startPos = .ok pass) ∧
      (∀ startPos further found,
        parseCookiePass (text ++ ascii ";") startPos = .ok (.next further found) →
          startPos < further) ∧
      ∃ cookies, parseCookie text = some (.ok cookies)) ∧
    (∃ (text : List UInt8) (further : ℕ), (text ++ ascii ";").length < further ∧
      parseCookiePass (text ++ ascii ";") 0 = .ok (.next further [])) ∧
    ∃ (text : List UInt8) (separatorPos : ℕ),
      findFirstOf (text ++ ascii ";") (ascii "=;") 0 = some separatorPos ∧
        (text ++ ascii ";").length <
          sizeSub (sizeSub (text ++ ascii ";").length separatorPos) 2 := by
  refine ⟨fun text => ⟨fun startPos => ?_, fun startPos further found pass => ?_, ?_⟩,
    ⟨ascii "secure", 8, by decide +kernel, by decide +kernel⟩,
    ascii "a", 1, by decide +kernel, by decide +kernel⟩
  · obtain ⟨pass, ended, _⟩ := pass_ends (text ++ ascii ";") startPos
    exact ⟨pass, ended⟩
  · obtain ⟨same, ended, advances⟩ := pass_ends (text ++ ascii ";") startPos
    exact (advances further found (Except.ok.inj (ended.symm.trans pass))).2
  · obtain ⟨found, finds⟩ := exists_finds (text ++ ascii ";") 0
    exact ⟨found, finds.parseCookie⟩

end Kurlyk.Utils
