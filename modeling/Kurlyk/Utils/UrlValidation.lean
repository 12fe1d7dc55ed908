/-
This file models the validating functions of `utils/url_utils.hpp`: `is_valid_domain`,
`is_valid_path`, `is_valid_query` and `is_valid_url`. Positions are numbers, `substr` throws behind
the end and lengths are differences of `size_t`; that none of it goes wrong is proved.

`is_valid_query` accepts what it should. `is_valid_domain` looks for the first dot and takes
everything behind it for the top-level label, so it refuses every name of more than two labels.
`is_valid_url` ends the domain at the first slash even when a question mark stands before it, and
then refuses the domain, which has the question mark in it.
-/

import Kurlyk.Lib.Text
import Kurlyk.Utils.Characters

namespace Kurlyk.Utils

open Text

/-! ### The model -/

def isValidDomain (domain : List UInt8) : Except OutOfRange Bool :=
  match findChar domain '.'.toUInt8 0 with
  | none => return false
  | some dotPos =>
    if dotPos = 0 ∨ dotPos = sizeSub domain.length 1 then return false
    else if domain.any fun ch => !isalnum ch && ch ≠ '-'.toUInt8 && ch ≠ '.'.toUInt8 then
      return false
    else do
      let tld ← substrFrom domain (dotPos + 1)
      return tld.all isalpha

def isValidPath (path : List UInt8) : Bool :=
  if path.isEmpty ∨ path.head? ≠ some '/'.toUInt8 then false
  else path.all fun ch =>
    isalnum ch || ch = '/'.toUInt8 || ch = '-'.toUInt8 || ch = '_'.toUInt8

/-- The loop of `is_valid_query`. -/
def isValidQueryFrom (query : List UInt8) (pos : ℕ) : Bool :=
  if pos < query.length then
    match findChar query '='.toUInt8 pos, ampersand : findChar query '&'.toUInt8 pos with
    | none, _ => false
    | some _, none => isValidQueryFrom query query.length
    | some equalPos, some ampPos =>
      if ampPos < equalPos then false else isValidQueryFrom query (ampPos + 1)
  else true
termination_by query.length - pos
decreasing_by
  · omega
  · have bounds := findChar_bounds ampersand
    omega

def isValidQuery (query : List UInt8) : Bool :=
  if query.isEmpty ∨ query.head? ≠ some '?'.toUInt8 then false
  else isValidQueryFrom query 1

/-- The check of the path, if there is one. -/
def pathAccepted (url : List UInt8) (pathStart queryStart : Option ℕ) : Except OutOfRange Bool :=
  match pathStart, queryStart with
  | none, _ => return true
  | some pathStart, some queryStart => do
    let path ← substr url pathStart (sizeSub queryStart pathStart)
    return isValidPath path
  | some pathStart, none => do
    let path ← substrFrom url pathStart
    return isValidPath path

/-- The check of the query, if there is one. -/
def queryAccepted (url : List UInt8) (queryStart : Option ℕ) : Except OutOfRange Bool :=
  match queryStart with
  | none => return true
  | some queryStart => do
    let query ← substrFrom url queryStart
    return isValidQuery query

def isValidUrl (url : List UInt8) (protocol : List (List UInt8)) : Except OutOfRange Bool :=
  match find url (ascii "://") 0 with
  | none => return false
  | some schemeEnd => do
    let scheme ← substr url 0 schemeEnd
    if scheme ∉ protocol then return false
    else
      let domainStart := schemeEnd + 3
      let pathStart := findChar url '/'.toUInt8 domainStart
      let queryStart := findChar url '?'.toUInt8 domainStart
      let domainEnd := (pathStart.or queryStart).getD url.length
      let domain ← substr url domainStart (sizeSub domainEnd domainStart)
      if !(← isValidDomain domain) then return false
      else if !(← pathAccepted url pathStart queryStart) then return false
      else queryAccepted url queryStart

/-! ### Queries -/

/-- What may stand behind the question mark: segments with an equals sign, separated by ampersands,
of which the last may be missing. -/
inductive QuerySegments : List UInt8 → Prop where
  | nil : QuerySegments []
  | last {segment : List UInt8} (equals : '='.toUInt8 ∈ segment) (plain : '&'.toUInt8 ∉ segment) :
    QuerySegments segment
  | more {segment rest : List UInt8} (equals : '='.toUInt8 ∈ segment)
    (plain : '&'.toUInt8 ∉ segment) (others : QuerySegments rest) :
    QuerySegments (segment ++ '&'.toUInt8 :: rest)

variable {query segment rest : List UInt8} {pos : ℕ}

theorem querySegments_last_iff (plain : '&'.toUInt8 ∉ segment) (some : segment ≠ []) :
    QuerySegments segment ↔ '='.toUInt8 ∈ segment := by
  refine ⟨fun segments => ?_, fun equals => .last equals plain⟩
  cases segments with
  | nil => exact absurd rfl some
  | last equals _ => exact equals
  | more _ _ _ => exact absurd (List.mem_append_right _ List.mem_cons_self) plain

theorem querySegments_more_iff (plain : '&'.toUInt8 ∉ segment) :
    QuerySegments (segment ++ '&'.toUInt8 :: rest) ↔
      '='.toUInt8 ∈ segment ∧ QuerySegments rest := by
  refine ⟨fun segments => ?_, fun both => .more both.1 plain both.2⟩
  generalize whole : segment ++ '&'.toUInt8 :: rest = text at segments
  cases segments with
  | nil => exact absurd whole (by simp)
  | last _ without =>
    rw [← whole] at without
    exact absurd (List.mem_append_right _ List.mem_cons_self) without
  | @more other behind equals without others =>
    obtain ⟨rfl, rfl⟩ := eq_of_append_cons plain without whole
    exact ⟨equals, others⟩

/-! #### What is left at a position -/

/-- At the end of the query the loop has found everything in order. -/
theorem isValidQueryFrom_end (left : query.drop pos = []) : isValidQueryFrom query pos = true := by
  rw [List.drop_eq_nil_iff] at left
  rw [isValidQueryFrom, if_neg (Nat.not_lt.mpr left)]

theorem lt_length_of_drop (left : query.drop pos = segment) (some : segment ≠ []) :
    pos < query.length := by
  by_contra behind
  rw [← left, ne_eq, List.drop_eq_nil_iff] at some
  exact some (Nat.not_lt.mp behind)

/-- The last segment. -/
theorem isValidQueryFrom_last (left : query.drop pos = segment) (some : segment ≠ [])
    (plain : '&'.toUInt8 ∉ segment) :
    isValidQueryFrom query pos = true ↔ '='.toUInt8 ∈ segment := by
  have noAmpersand : findChar query '&'.toUInt8 pos = none := findChar_eq_none (left ▸ plain)
  rw [isValidQueryFrom, if_pos (lt_length_of_drop left some)]
  by_cases equals : '='.toUInt8 ∈ segment
  · obtain ⟨name, value, rfl, absent⟩ := List.eq_append_cons_of_mem equals
    rw [findChar_eq_some left absent, noAmpersand]
    refine iff_of_true ?_ equals
    exact isValidQueryFrom_end (List.drop_length)
  · rw [findChar_eq_none (left ▸ equals)]
    exact iff_of_false (by simp) equals

/-- A segment with an ampersand behind it. -/
theorem isValidQueryFrom_more (left : query.drop pos = segment ++ '&'.toUInt8 :: rest)
    (plain : '&'.toUInt8 ∉ segment) :
    isValidQueryFrom query pos = true ↔
      '='.toUInt8 ∈ segment ∧ isValidQueryFrom query (pos + segment.length + 1) = true := by
  have ampersand := findChar_eq_some left plain
  rw [isValidQueryFrom, if_pos (lt_length_of_drop left (by simp))]
  by_cases equals : '='.toUInt8 ∈ segment
  · obtain ⟨name, value, rfl, absent⟩ := List.eq_append_cons_of_mem equals
    have equal : findChar query '='.toUInt8 pos = some (pos + name.length) := by
      rw [List.append_assoc] at left
      exact findChar_eq_some left absent
    rw [equal, ampersand]
    dsimp only
    rw [if_neg (by rw [List.length_append]; omega)]
    exact (and_iff_right equals).symm
  · refine iff_of_false ?_ fun both => equals both.1
    cases found : findChar query '='.toUInt8 pos with
    | none => simp
    | some equalPos =>
      have later := lt_of_findChar left equals (by decide) found
      rw [ampersand]
      dsimp only
      rw [if_pos later]
      simp

/-- The loop accepts what is left exactly when it consists of segments. -/
theorem isValidQueryFrom_iff (query : List UInt8) (pos : ℕ) :
    isValidQueryFrom query pos = true ↔ QuerySegments (query.drop pos) := by
  -- Every pass reads a segment, so there is less left behind it.
  induction measure : (query.drop pos).length using Nat.strongRecOn generalizing pos with
  | ind size inductionHypothesis =>
    by_cases ampersand : '&'.toUInt8 ∈ query.drop pos
    · obtain ⟨segment, rest, left, plain⟩ := List.eq_append_cons_of_mem ampersand
      have behind : query.drop (pos + segment.length + 1) = rest := by
        rw [Nat.add_assoc, ← List.drop_drop, left, ← List.drop_drop, List.drop_left,
          List.drop_succ_cons, List.drop_zero]
      have shorter : rest.length < size := by
        rw [← measure, left, List.length_append, List.length_cons]
        omega
      rw [isValidQueryFrom_more left plain, left, querySegments_more_iff plain, ← behind,
        inductionHypothesis _ (behind ▸ shorter) _ rfl]
    · by_cases nothing : query.drop pos = []
      · rw [nothing]
        exact iff_of_true (isValidQueryFrom_end nothing) .nil
      · rw [isValidQueryFrom_last rfl nothing ampersand, querySegments_last_iff ampersand nothing]

theorem isValidQuery_iff (query : List UInt8) :
    isValidQuery query = true ↔ ∃ text, query = '?'.toUInt8 :: text ∧ QuerySegments text := by
  cases query with
  | nil => simp [isValidQuery]
  | cons character text =>
    rw [isValidQuery]
    by_cases mark : character = '?'.toUInt8
    · rw [if_neg (by simp [mark]), isValidQueryFrom_iff, mark]
      simp
    · rw [if_pos (by simp [mark])]
      simp [mark]

/-! #### Segments as a list -/

theorem intercalate_cons {segments : List (List UInt8)} (separator : UInt8) (segment : List UInt8)
    (some : segments ≠ []) :
    [separator].intercalate (segment :: segments) =
      segment ++ separator :: [separator].intercalate segments := by
  rw [List.intercalate_cons_of_ne_nil some, List.append_assoc, List.singleton_append]

/-- Joined segments, with an ampersand at the end or without. -/
theorem querySegments_intercalate {segments : List (List UInt8)} {final : List UInt8}
    (some : segments ≠ [])
    (each : ∀ segment ∈ segments, '='.toUInt8 ∈ segment ∧ '&'.toUInt8 ∉ segment)
    (ends : final = [] ∨ final = ['&'.toUInt8]) :
    QuerySegments (['&'.toUInt8].intercalate segments ++ final) := by
  induction segments with
  | nil => exact absurd rfl some
  | cons segment others inductionHypothesis =>
    obtain ⟨⟨equals, plain⟩, eachOther⟩ := List.forall_mem_cons.mp each
    cases others with
    | nil =>
      rw [List.intercalate_singleton]
      rcases ends with rfl | rfl
      · rw [List.append_nil]
        exact .last equals plain
      · exact .more equals plain .nil
    | cons next more =>
      rw [intercalate_cons _ _ (by simp), List.append_assoc, List.cons_append]
      exact .more equals plain (inductionHypothesis (by simp) eachOther)

theorem querySegments_iff (text : List UInt8) :
    QuerySegments text ↔ text = [] ∨ ∃ segments : List (List UInt8), segments ≠ [] ∧
      (∀ segment ∈ segments, '='.toUInt8 ∈ segment ∧ '&'.toUInt8 ∉ segment) ∧
      (text = ['&'.toUInt8].intercalate segments ∨
        text = ['&'.toUInt8].intercalate segments ++ ['&'.toUInt8]) := by
  constructor
  · intro segments
    induction segments with
    | nil => exact Or.inl rfl
    | @last segment equals plain =>
      exact Or.inr ⟨[segment], by simp, by simp [equals, plain], Or.inl (by simp)⟩
    | @more segment rest equals plain _ inductionHypothesis =>
      right
      rcases inductionHypothesis with rfl | ⟨segments, some, each, joined⟩
      · exact ⟨[segment], by simp, by simp [equals, plain], Or.inr (by simp)⟩
      · refine ⟨segment :: segments, by simp, List.forall_mem_cons.mpr ⟨⟨equals, plain⟩, each⟩, ?_⟩
        rw [intercalate_cons _ _ some]
        rcases joined with rfl | rfl
        · exact Or.inl rfl
        · exact Or.inr (by rw [List.append_assoc, List.cons_append])
  · rintro (rfl | ⟨segments, some, each, rfl | rfl⟩)
    · exact .nil
    · have segmented := querySegments_intercalate some each (Or.inl rfl)
      rwa [List.append_nil] at segmented
    · exact querySegments_intercalate some each (Or.inr rfl)

/-- `is_valid_query` accepts a question mark alone, or with segments behind it that each have an
equals sign, separated by ampersands, of which one more may stand at the end. -/
theorem valid_query_iff (query : List UInt8) :
    isValidQuery query = true ↔ query = ascii "?" ∨
      ∃ segments : List (List UInt8), segments ≠ [] ∧
        (∀ segment ∈ segments, '='.toUInt8 ∈ segment ∧ '&'.toUInt8 ∉ segment) ∧
        (query = ascii "?" ++ ['&'.toUInt8].intercalate segments ∨
          query = ascii "?" ++ ['&'.toUInt8].intercalate segments ++ ascii "&") := by
  have mark : ascii "?" = ['?'.toUInt8] := by decide
  have ampersand : ascii "&" = ['&'.toUInt8] := by decide
  rw [isValidQuery_iff, mark, ampersand]
  constructor
  · rintro ⟨text, rfl, segmented⟩
    rcases (querySegments_iff text).mp segmented with rfl | ⟨segments, some, each, rfl | rfl⟩
    · exact Or.inl rfl
    · exact Or.inr ⟨segments, some, each, Or.inl rfl⟩
    · exact Or.inr ⟨segments, some, each, Or.inr rfl⟩
  · rintro (rfl | ⟨segments, some, each, rfl | rfl⟩)
    · exact ⟨[], rfl, .nil⟩
    · exact ⟨_, rfl, (querySegments_iff _).mpr (Or.inr ⟨segments, some, each, Or.inl rfl⟩)⟩
    · exact ⟨_, rfl, (querySegments_iff _).mpr (Or.inr ⟨segments, some, each, Or.inr rfl⟩)⟩

example : isValidQuery (ascii "?a=1&b=2&") = true ∧ isValidQuery (ascii "?a=1&&b=2") = false := by
  decide +kernel

/-! ### Domains -/

/-- The characters of a domain. -/
def isDomainChar (ch : UInt8) : Bool :=
  isalnum ch || ch = '-'.toUInt8 || ch = '.'.toUInt8

variable {domain front : List UInt8}

/-- The loop over the characters leaves at one that is not of a domain. -/
theorem any_refused (domain : List UInt8) :
    (domain.any fun ch => !isalnum ch && ch ≠ '-'.toUInt8 && ch ≠ '.'.toUInt8) =
      !domain.all isDomainChar := by
  rw [List.not_all_eq_any_not]
  refine congrArg (List.any _) (funext fun ch => ?_)
  simp [isDomainChar]

/-- What `is_valid_domain` says of a domain whose first dot has something before and behind it. -/
theorem isValidDomain_of_dot (absent : '.'.toUInt8 ∉ front) (named : front ≠ [])
    (some : rest ≠ []) :
    isValidDomain (front ++ '.'.toUInt8 :: rest) =
      .ok ((front ++ '.'.toUInt8 :: rest).all isDomainChar && rest.all isalpha) := by
  have dot : findChar (front ++ '.'.toUInt8 :: rest) '.'.toUInt8 0 = .some front.length := by
    rw [findChar_eq_some List.drop_zero absent, Nat.zero_add]
  have length : (front ++ '.'.toUInt8 :: rest).length = front.length + 1 + rest.length := by
    rw [List.length_append, List.length_cons]
    omega
  have frontLength := List.length_pos_of_ne_nil named
  have restLength := List.length_pos_of_ne_nil some
  have inner : ¬ (front.length = 0 ∨
      front.length = sizeSub (front ++ '.'.toUInt8 :: rest).length 1) := by
    rw [length, sizeSub, if_pos (by omega)]
    omega
  have behind : substrFrom (front ++ '.'.toUInt8 :: rest) (front.length + 1) = .ok rest := by
    refine substrFrom_of_drop ?_ (by omega)
    rw [← List.drop_drop, List.drop_left, List.drop_succ_cons, List.drop_zero]
  rw [isValidDomain, dot]
  dsimp only
  rw [if_neg inner, any_refused, behind]
  cases (front ++ '.'.toUInt8 :: rest).all isDomainChar with
  | false => rfl
  | true => rfl

/-- A valid domain holds no other characters. -/
theorem all_isDomainChar_of_valid (valid : isValidDomain domain = .ok true) :
    domain.all isDomainChar = true := by
  rw [isValidDomain] at valid
  split at valid
  · exact absurd valid (by decide)
  · split at valid
    · exact absurd valid (by decide)
    · split at valid
      · exact absurd valid (by decide)
      · rename_i accepted
        rwa [any_refused, Bool.not_eq_true, Bool.not_eq_false'] at accepted

theorem isValidDomain_ok (domain : List UInt8) : ∃ answer, isValidDomain domain = .ok answer := by
  rw [isValidDomain]
  split
  · exact ⟨_, rfl⟩
  · rename_i dotPos found
    split
    · exact ⟨_, rfl⟩
    · split
      · exact ⟨_, rfl⟩
      · have bounds := findChar_bounds found
        rw [substrFrom_of_drop rfl (by omega)]
        exact ⟨_, rfl⟩

/-- A label: letters, digits and hyphens. -/
structure IsLabel (label : List UInt8) : Prop where
  some : label ≠ []
  plain : ∀ ch ∈ label, isalnum ch = true ∨ ch = '-'.toUInt8

theorem IsLabel.no_dot {label : List UInt8} (isLabel : IsLabel label) : '.'.toUInt8 ∉ label := by
  intro member
  rcases isLabel.plain _ member with letter | hyphen
  · exact absurd letter (by decide)
  · exact absurd hyphen (by decide)

/-- A label of several that are joined consists of characters of a domain, and so does the whole. -/
theorem all_isDomainChar_of_labels {labels : List (List UInt8)}
    (formed : ∀ label ∈ labels, IsLabel label) :
    (['.'.toUInt8].intercalate labels).all isDomainChar = true := by
  induction labels with
  | nil => rfl
  | cons label others inductionHypothesis =>
    obtain ⟨isLabel, othersFormed⟩ := List.forall_mem_cons.mp formed
    have letters : label.all isDomainChar = true := by
      rw [List.all_eq_true]
      intro ch member
      rcases isLabel.plain ch member with letter | hyphen
      · simp [isDomainChar, letter]
      · simp [isDomainChar, hyphen]
    cases others with
    | nil => rwa [List.intercalate_singleton]
    | cons next more =>
      rw [intercalate_cons _ _ (by simp), List.all_append, letters, List.all_cons,
        inductionHypothesis othersFormed]
      decide

/-- `is_valid_domain` judges a domain by its last label exactly when it has two labels, or when the
last label is not of letters only. -/
theorem valid_domain_iff {labels : List (List UInt8)} (several : 2 ≤ labels.length)
    (formed : ∀ label ∈ labels, IsLabel label) :
    (isValidDomain (['.'.toUInt8].intercalate labels) = .ok true ↔
        ∀ last ∈ labels.getLast?, last.all isalpha = true) ↔
      labels.length = 2 ∨ ∃ last ∈ labels.getLast?, last.all isalpha = false := by
  match labels, several with
  | first :: second :: others, _ =>
    obtain ⟨firstLabel, restFormed⟩ := List.forall_mem_cons.mp formed
    have behind : ['.'.toUInt8].intercalate (second :: others) ≠ [] := by
      have secondLabel := (restFormed second List.mem_cons_self).some
      cases others with
      | nil => rwa [List.intercalate_singleton]
      | cons third more =>
        rw [intercalate_cons _ _ (by simp)]
        simp
    have characters := all_isDomainChar_of_labels formed
    rw [intercalate_cons _ _ (by simp)] at characters ⊢
    rw [isValidDomain_of_dot firstLabel.no_dot firstLabel.some behind, characters, Bool.true_and,
      Except.ok.injEq]
    cases others with
    | nil => simp
    | cons third more =>
      -- The text behind the first dot has a dot in it.
      have refused : (['.'.toUInt8].intercalate (second :: third :: more)).all isalpha = false := by
        rw [intercalate_cons _ _ (by simp), List.all_append, List.all_cons]
        simp [show isalpha '.'.toUInt8 = false by decide]
      rw [refused]
      simp

instance (label : List UInt8) : Decidable (IsLabel label) :=
  decidable_of_iff (label ≠ [] ∧ label.all (fun ch => isalnum ch ∨ ch = '-'.toUInt8) = true)
    ⟨fun both => ⟨both.1, fun ch member =>
        of_decide_eq_true (List.all_eq_true.mp both.2 ch member)⟩,
      fun isLabel => ⟨isLabel.some, List.all_eq_true.mpr fun ch member =>
        decide_eq_true (isLabel.plain ch member)⟩⟩

theorem valid_domain_iff_twoLabels :
    isValidDomain (['.'.toUInt8].intercalate [ascii "example", ascii "com"]) = .ok true :=
  ((@valid_domain_iff [ascii "example", ascii "com"] (by decide) (by decide +kernel)).mpr
    (Or.inl rfl)).mpr (by decide +kernel)

/-- A name of three labels is refused, although its last label is of letters only. -/
theorem third_label_refused :
    ['.'.toUInt8].intercalate [ascii "www", ascii "example", ascii "com"] =
        ascii "www.example.com" ∧
      isValidDomain (ascii "www.example.com") = .ok false ∧
      ¬ ∀ labels : List (List UInt8), 2 ≤ labels.length → (∀ label ∈ labels, IsLabel label) →
        (isValidDomain (['.'.toUInt8].intercalate labels) = .ok true ↔
          ∀ last ∈ labels.getLast?, last.all isalpha = true) := by
  refine ⟨by decide +kernel, by decide +kernel, fun judges => ?_⟩
  have wrong := judges [ascii "www", ascii "example", ascii "com"] (by decide) (by decide +kernel)
  exact absurd (wrong.mpr (by decide +kernel)) (by decide +kernel)

/-! ### URLs -/

/-- A URL split at its first `://`: scheme, domain, path and query. -/
structure UrlParts (url : List UInt8) where
  scheme : List UInt8
  domain : List UInt8
  path : List UInt8
  query : List UInt8
  text : url = scheme ++ ascii "://" ++ (domain ++ (path ++ query))
  first : ∀ other rest, url = other ++ ascii "://" ++ rest → scheme.length ≤ other.length
  domain_plain : '/'.toUInt8 ∉ domain ∧ '?'.toUInt8 ∉ domain
  path_form : (path = [] ∨ path.head? = some '/'.toUInt8) ∧ '?'.toUInt8 ∉ path
  query_form : query = [] ∨ query.head? = some '?'.toUInt8

namespace UrlParts

variable {url : List UInt8}

/-- The scheme is listed, and each part that is there is valid. -/
def Valid (parts : UrlParts url) (protocol : List (List UInt8)) : Prop :=
  parts.scheme ∈ protocol ∧ isValidDomain parts.domain = .ok true ∧
    (parts.path = [] ∨ isValidPath parts.path = true) ∧
    (parts.query = [] ∨ isValidQuery parts.query = true)

/-- A text splits into a part without the character and a part that begins with it. -/
theorem exists_split (character : UInt8) (text : List UInt8) :
    ∃ front rest, text = front ++ rest ∧ character ∉ front ∧
      (rest = [] ∨ rest.head? = some character) := by
  by_cases present : character ∈ text
  · obtain ⟨front, rest, rfl, absent⟩ := List.eq_append_cons_of_mem present
    exact ⟨front, character :: rest, rfl, absent, Or.inr rfl⟩
  · exact ⟨text, [], by simp, present, Or.inl rfl⟩

theorem split_unique {character : UInt8} {front rest otherFront otherRest : List UInt8}
    (same : front ++ rest = otherFront ++ otherRest) (absent : character ∉ front)
    (otherAbsent : character ∉ otherFront) (form : rest = [] ∨ rest.head? = some character)
    (otherForm : otherRest = [] ∨ otherRest.head? = some character) :
    front = otherFront ∧ rest = otherRest := by
  match rest, otherRest, form, otherForm with
  | [], [], _, _ => simpa using same
  | head :: tail, [], .inr here, _ =>
    obtain rfl : head = character := by simpa using here
    rw [List.append_nil] at same
    exact absurd (same ▸ List.mem_append_right _ List.mem_cons_self) otherAbsent
  | [], head :: tail, _, .inr here =>
    obtain rfl : head = character := by simpa using here
    rw [List.append_nil] at same
    exact absurd (same.symm ▸ List.mem_append_right _ List.mem_cons_self) absent
  | head :: tail, otherHead :: otherTail, .inr here, .inr otherHere =>
    obtain rfl : head = character := by simpa using here
    obtain rfl : otherHead = head := by simpa using otherHere
    obtain ⟨rfl, rfl⟩ := eq_of_append_cons absent otherAbsent same
    exact ⟨rfl, rfl⟩

/-- A URL is split in one way. -/
theorem unique (parts others : UrlParts url) :
    parts.scheme = others.scheme ∧ parts.domain = others.domain ∧ parts.path = others.path ∧
      parts.query = others.query := by
  have same := parts.text.symm.trans others.text
  have lengths : parts.scheme.length = others.scheme.length :=
    Nat.le_antisymm (parts.first _ _ others.text) (others.first _ _ parts.text)
  rw [List.append_assoc, List.append_assoc] at same
  obtain ⟨schemes, rests⟩ := List.append_inj same lengths
  have behind := List.append_cancel_left rests
  rw [← List.append_assoc, ← List.append_assoc] at behind
  have noQuestion : ∀ split : UrlParts url, '?'.toUInt8 ∉ split.domain ++ split.path := by
    intro split
    rw [List.mem_append, not_or]
    exact ⟨split.domain_plain.2, split.path_form.2⟩
  obtain ⟨fronts, queries⟩ := split_unique behind (noQuestion parts) (noQuestion others)
    parts.query_form others.query_form
  obtain ⟨domains, paths⟩ := split_unique fronts parts.domain_plain.1 others.domain_plain.1
    parts.path_form.1 others.path_form.1
  exact ⟨schemes, domains, paths, queries⟩

theorem valid_congr {protocol : List (List UInt8)} (parts others : UrlParts url)
    (valid : others.Valid protocol) : parts.Valid protocol := by
  obtain ⟨schemes, domains, paths, queries⟩ := parts.unique others
  rw [Valid, schemes, domains, paths, queries]
  exact valid

/-- A URL with `://` in it can be split. -/
theorem exists_of_find {schemeEnd : ℕ} (found : find url (ascii "://") 0 = some schemeEnd) :
    Nonempty (UrlParts url) := by
  rw [find_zero] at found
  obtain ⟨scheme, rest, text, rfl, first⟩ := split_of_occurrence found
  obtain ⟨front, query, rfl, noQuestion, queryForm⟩ := exists_split '?'.toUInt8 rest
  obtain ⟨domain, path, rfl, noSlash, pathForm⟩ := exists_split '/'.toUInt8 front
  rw [List.mem_append, not_or] at noQuestion
  rw [List.append_assoc domain] at text
  exact ⟨⟨scheme, domain, path, query, text, first, ⟨noSlash, noQuestion.1⟩,
    ⟨pathForm, noQuestion.2⟩, queryForm⟩⟩

/-! #### What `is_valid_url` finds -/

section Found

variable (parts : UrlParts url)

theorem find_scheme : find url (ascii "://") 0 = some parts.scheme.length := by
  rw [find_zero]
  refine (congrArg (occurrence (ascii "://")) parts.text).trans (occurrence_eq_some ?_)
  exact fun other behind same => parts.first other behind (parts.text.trans same)

theorem substr_scheme : substr url 0 parts.scheme.length = .ok parts.scheme := by
  rw [substr_of_le (Nat.zero_le _), List.drop_zero]
  refine congrArg Except.ok ((congrArg (List.take parts.scheme.length) parts.text).trans ?_)
  rw [List.append_assoc, List.take_left]

/-- Where the domain begins. -/
def domainStart : ℕ :=
  parts.scheme.length + 3

theorem drop_domainStart :
    url.drop parts.domainStart = parts.domain ++ (parts.path ++ parts.query) := by
  have three : parts.domainStart = (parts.scheme ++ ascii "://").length := by
    rw [List.length_append]
    rfl
  rw [three]
  exact (congrArg (List.drop (parts.scheme ++ ascii "://").length) parts.text).trans List.drop_left

theorem domainStart_le : parts.domainStart ≤ url.length := by
  have length := congrArg List.length parts.text
  have three : (ascii "://").length = 3 := by decide
  rw [List.length_append, List.length_append, three] at length
  rw [domainStart]
  omega

theorem findChar_query :
    findChar url '?'.toUInt8 parts.domainStart =
      if parts.query = [] then none
      else some (parts.domainStart + (parts.domain ++ parts.path).length) := by
  have left := parts.drop_domainStart
  have absent : '?'.toUInt8 ∉ parts.domain ++ parts.path := by
    rw [List.mem_append, not_or]
    exact ⟨parts.domain_plain.2, parts.path_form.2⟩
  rw [← List.append_assoc] at left
  split
  · rename_i nothing
    rw [nothing, List.append_nil] at left
    exact findChar_eq_none (left ▸ absent)
  · rename_i something
    obtain ⟨rest, begins⟩ := List.head?_eq_some_iff.mp (parts.query_form.resolve_left something)
    rw [begins] at left
    exact findChar_eq_some left absent

theorem findChar_path (ordered : parts.path ≠ [] ∨ '/'.toUInt8 ∉ parts.query) :
    findChar url '/'.toUInt8 parts.domainStart =
      if parts.path = [] then none else some (parts.domainStart + parts.domain.length) := by
  have left := parts.drop_domainStart
  split
  · rename_i nothing
    have absent := ordered.resolve_left (not_not_intro nothing)
    refine findChar_eq_none ?_
    rw [left, nothing, List.nil_append, List.mem_append, not_or]
    exact ⟨parts.domain_plain.1, absent⟩
  · rename_i something
    obtain ⟨rest, begins⟩ := List.head?_eq_some_iff.mp (parts.path_form.1.resolve_left something)
    rw [begins] at left
    exact findChar_eq_some left parts.domain_plain.1

/-- The domain that is cut out, when the path and the query are found in order. -/
theorem substr_domain (ordered : parts.path ≠ [] ∨ '/'.toUInt8 ∉ parts.query) :
    substr url parts.domainStart (sizeSub (((findChar url '/'.toUInt8 parts.domainStart).or
      (findChar url '?'.toUInt8 parts.domainStart)).getD url.length) parts.domainStart) =
        .ok parts.domain := by
  have left := parts.drop_domainStart
  have ends : ((findChar url '/'.toUInt8 parts.domainStart).or
      (findChar url '?'.toUInt8 parts.domainStart)).getD url.length =
        parts.domainStart + parts.domain.length := by
    rw [parts.findChar_path ordered, parts.findChar_query]
    by_cases noPath : parts.path = []
    · by_cases noQuery : parts.query = []
      · have length := congrArg List.length left
        have inside := parts.domainStart_le
        rw [List.length_drop, noPath, noQuery, List.append_nil, List.append_nil] at length
        rw [if_pos noPath, if_pos noQuery, Option.none_or, Option.getD_none]
        omega
      · rw [if_pos noPath, if_neg noQuery, noPath, List.append_nil]
        rfl
    · rw [if_neg noPath]
      rfl
  rw [ends]
  exact substr_between left parts.domainStart_le

theorem pathAccepted_eq (ordered : parts.path ≠ [] ∨ '/'.toUInt8 ∉ parts.query) :
    pathAccepted url (findChar url '/'.toUInt8 parts.domainStart)
      (findChar url '?'.toUInt8 parts.domainStart) =
        .ok (parts.path.isEmpty || isValidPath parts.path) := by
  have behind := drop_of_drop parts.drop_domainStart
  have inside := le_length_of_drop parts.drop_domainStart parts.domainStart_le
  rw [parts.findChar_path ordered, parts.findChar_query]
  by_cases noPath : parts.path = []
  · rw [if_pos noPath, noPath]
    rfl
  · have named : parts.path.isEmpty = false := by simpa using noPath
    rw [if_neg noPath, named, Bool.false_or]
    by_cases noQuery : parts.query = []
    · rw [noQuery, List.append_nil] at behind
      rw [if_pos noQuery, pathAccepted, substrFrom_of_drop behind inside]
      rfl
    · rw [if_neg noQuery, pathAccepted, List.length_append, ← Nat.add_assoc,
        substr_between behind inside]
      rfl

theorem queryAccepted_eq :
    queryAccepted url (findChar url '?'.toUInt8 parts.domainStart) =
      .ok (parts.query.isEmpty || isValidQuery parts.query) := by
  have left := parts.drop_domainStart
  rw [← List.append_assoc] at left
  have behind := drop_of_drop left
  rw [parts.findChar_query]
  by_cases noQuery : parts.query = []
  · rw [if_pos noQuery, noQuery]
    rfl
  · have inside := le_length_of_drop left parts.domainStart_le
    have named : parts.query.isEmpty = false := by simpa using noQuery
    rw [if_neg noQuery, named, Bool.false_or, queryAccepted, substrFrom_of_drop behind inside]
    rfl

/-- A domain that goes up to a slash behind a question mark is refused. -/
theorem isValidDomain_of_slash_in_query (noPath : parts.path = [])
    (slash : '/'.toUInt8 ∈ parts.query) :
    ∃ domain, substr url parts.domainStart (sizeSub (((findChar url '/'.toUInt8
      parts.domainStart).or (findChar url '?'.toUInt8 parts.domainStart)).getD url.length)
        parts.domainStart) = .ok domain ∧ isValidDomain domain = .ok false := by
  have left := parts.drop_domainStart
  obtain ⟨text, begins⟩ := List.head?_eq_some_iff.mp
    (parts.query_form.resolve_left (List.ne_nil_of_mem slash))
  rw [begins, List.mem_cons] at slash
  obtain ⟨front, rest, rfl, absent⟩ := List.eq_append_cons_of_mem (slash.resolve_left (by decide))
  have whole : url.drop parts.domainStart =
      (parts.domain ++ '?'.toUInt8 :: front) ++ '/'.toUInt8 :: rest := by
    rw [left, noPath, begins, List.nil_append, List.append_assoc, List.cons_append]
  have noSlash : '/'.toUInt8 ∉ parts.domain ++ '?'.toUInt8 :: front := by
    rw [List.mem_append, List.mem_cons, not_or, not_or]
    exact ⟨parts.domain_plain.1, by decide, absent⟩
  have start := findChar_eq_some whole noSlash
  refine ⟨parts.domain ++ '?'.toUInt8 :: front, ?_, ?_⟩
  · rw [start]
    exact substr_between whole parts.domainStart_le
  · obtain ⟨answer, answers⟩ := isValidDomain_ok (parts.domain ++ '?'.toUInt8 :: front)
    cases answer with
    | false => exact answers
    | true =>
      have characters := all_isDomainChar_of_valid answers
      rw [List.all_append, List.all_cons,
        show isDomainChar '?'.toUInt8 = false by decide] at characters
      simp at characters

/-- What `is_valid_url` returns, unless a slash in the query is taken for the path. -/
theorem isValidUrl_eq (ordered : parts.path ≠ [] ∨ '/'.toUInt8 ∉ parts.query) {answer : Bool}
    (answers : isValidDomain parts.domain = .ok answer) (protocol : List (List UInt8)) :
    isValidUrl url protocol = .ok (decide (parts.scheme ∈ protocol) && answer &&
      (parts.path.isEmpty || isValidPath parts.path) &&
      (parts.query.isEmpty || isValidQuery parts.query)) := by
  have cut := parts.substr_domain ordered
  have path := parts.pathAccepted_eq ordered
  have query := parts.queryAccepted_eq
  rw [domainStart] at cut path query
  rw [isValidUrl, parts.find_scheme]
  dsimp only
  rw [parts.substr_scheme, ok_bind]
  by_cases listed : parts.scheme ∈ protocol
  · rw [if_neg (not_not_intro listed), cut, ok_bind, answers, ok_bind, path, ok_bind, query,
      decide_eq_true listed]
    cases answer with
    | false => rfl
    | true =>
      cases parts.path.isEmpty || isValidPath parts.path with
      | false => rfl
      | true => rfl
  · rw [if_pos listed, decide_eq_false listed]
    rfl

theorem isValidUrl_of_slash_in_query (noPath : parts.path = [])
    (slash : '/'.toUInt8 ∈ parts.query) (protocol : List (List UInt8)) :
    isValidUrl url protocol = .ok false := by
  obtain ⟨domain, cut, refused⟩ := parts.isValidDomain_of_slash_in_query noPath slash
  rw [domainStart] at cut
  rw [isValidUrl, parts.find_scheme]
  dsimp only
  rw [parts.substr_scheme, ok_bind]
  by_cases listed : parts.scheme ∈ protocol
  · rw [if_neg (not_not_intro listed), cut, ok_bind, refused, ok_bind]
    rfl
  · rw [if_pos listed]
    rfl

end Found

end UrlParts

/-- `is_valid_url` returns, and it accepts exactly the URLs whose parts are valid, unless the URL is
one of these, has no path and has a slash in its query. -/
theorem valid_url_iff (url : List UInt8) (protocol : List (List UInt8)) :
    ∃ answer, isValidUrl url protocol = .ok answer ∧
      ((answer = true ↔ ∃ parts : UrlParts url, parts.Valid protocol) ↔
        ¬ ∃ parts : UrlParts url, parts.Valid protocol ∧ parts.path = [] ∧
          '/'.toUInt8 ∈ parts.query) := by
  cases found : find url (ascii "://") 0 with
  | none =>
    have apart : UrlParts url → False := by
      intro parts
      rw [parts.find_scheme] at found
      exact absurd found (by simp)
    refine ⟨false, by rw [isValidUrl, found]; rfl, iff_of_true ?_ ?_⟩
    · exact iff_of_false (by decide) fun ⟨parts, _⟩ => apart parts
    · exact fun ⟨parts, _⟩ => apart parts
  | some schemeEnd =>
    obtain ⟨parts⟩ := UrlParts.exists_of_find found
    have valid_iff : (∃ others : UrlParts url, others.Valid protocol) ↔ parts.Valid protocol :=
      ⟨fun ⟨others, valid⟩ => parts.valid_congr others valid, fun valid => ⟨parts, valid⟩⟩
    by_cases ordered : parts.path ≠ [] ∨ '/'.toUInt8 ∉ parts.query
    · obtain ⟨answer, answers⟩ := isValidDomain_ok parts.domain
      refine ⟨_, parts.isValidUrl_eq ordered answers protocol, iff_of_true ?_ ?_⟩
      · rw [valid_iff, UrlParts.Valid, answers]
        simp [and_assoc]
      · rintro ⟨others, _, noPath, slash⟩
        obtain ⟨_, _, paths, queries⟩ := parts.unique others
        rw [paths, queries] at ordered
        exact ordered.elim (fun path => path noPath) fun absent => absent slash
    · rw [not_or, not_not, not_not] at ordered
      refine ⟨false, parts.isValidUrl_of_slash_in_query ordered.1 ordered.2 protocol, ?_⟩
      rw [valid_iff]
      constructor
      · rintro refused ⟨others, valid, _⟩
        exact absurd (refused.mpr (parts.valid_congr others valid)) (by decide)
      · intro none
        exact iff_of_false (by decide) fun valid => none ⟨parts, valid, ordered⟩

/-- The parts of `http://example.com?next=/home`. -/
def slashInQuery : UrlParts (ascii "http://example.com?next=/home") where
  scheme := ascii "http"
  domain := ascii "example.com"
  path := []
  query := ascii "?next=/home"
  text := by decide +kernel
  first other rest same := by
    have found : occurrence (ascii "://") (ascii "http://example.com?next=/home") = some 4 := by
      decide +kernel
    obtain ⟨_, _, _, _, earliest⟩ := split_of_occurrence found
    exact earliest other rest same
  domain_plain := by decide +kernel
  path_form := by decide +kernel
  query_form := by decide +kernel

/-- A slash in the query makes a URL invalid whose parts are all valid; the same URL with a path is
accepted. -/
theorem slash_in_query_refused :
    slashInQuery.Valid [ascii "http"] ∧
      isValidUrl (ascii "http://example.com?next=/home") [ascii "http"] = .ok false ∧
      isValidUrl (ascii "http://example.com/?next=/home") [ascii "http"] = .ok true ∧
      ¬ ∀ (url : List UInt8) (protocol : List (List UInt8)),
        isValidUrl url protocol = .ok true ↔ ∃ parts : UrlParts url, parts.Valid protocol := by
  have valid : slashInQuery.Valid [ascii "http"] :=
    ⟨by decide +kernel, by decide +kernel, by decide +kernel, by decide +kernel⟩
  have refused : isValidUrl (ascii "http://example.com?next=/home") [ascii "http"] = .ok false := by
    decide +kernel
  refine ⟨valid, refused, by decide +kernel, fun accepts => ?_⟩
  have wrong := (accepts (ascii "http://example.com?next=/home") [ascii "http"]).mpr
    ⟨slashInQuery, valid⟩
  rw [refused] at wrong
  exact absurd wrong (by decide)

end Kurlyk.Utils
