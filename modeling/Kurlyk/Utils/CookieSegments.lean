/-
This file says what `parse_cookie` makes of a text of segments that are joined by `"; "`, and what
it gives back of the text that `to_cookie_string` writes.

A pass of the parser looks for the end of a value behind the separator of the name. When a segment
has no `=`, that separator is the `;` which ends the segment, and the value found behind it is the
whole next segment with a blank before it. A segment that is swallowed so is lost, and the segment
that swallows it is given a value it does not have. Only the flags `secure` and `httponly` are
spared.
-/

import Mathlib.Algebra.Order.BigOperators.Group.List
import Mathlib.Algebra.Order.Group.Nat
import Kurlyk.Utils.CookieParser

namespace Kurlyk.Utils

open Text

/-! ### Segments -/

/-- The segments joined by `"; "`, with the `;` that the parser appends. -/
def rendered : List (List UInt8) → List UInt8
  | [] => []
  | [segment] => segment ++ [';'.toUInt8]
  | segment :: next :: rest =>
    segment ++ [';'.toUInt8, ' '.toUInt8] ++ rendered (next :: rest)

/-- The segments joined by `"; "`. -/
def joinSegments (segments : List (List UInt8)) : List UInt8 :=
  (ascii "; ").intercalate segments

/-- What a segment says: nothing, a cookie with its value, or a name alone, which may be that of an
attribute. -/
inductive Reading where
  | nothing
  | pair (name value : List UInt8)
  | bareAttribute
  | bareName (name : List UInt8)
deriving DecidableEq

/-- A segment is read from the left; a flag that has a value is skipped, and what follows its `=` is
read in its place. -/
def readSegment (segment : List UInt8) : Reading :=
  match _found : after '='.toUInt8 segment with
  | none =>
    match kindOf segment with
    | .flag => .nothing
    | .option => .bareAttribute
    | .cookie name => .bareName name
  | some value =>
    match kindOf (before '='.toUInt8 segment) with
    | .flag => readSegment value
    | .option => .nothing
    | .cookie name => .pair name value
termination_by segment.length
decreasing_by exact length_after_lt _found

/-- What the parser finds in the segments. A name without a value takes the next segment for its
value. -/
def walk : List (List UInt8) → List Cookie
  | [] => []
  | [segment] =>
    match readSegment segment with
    | .pair name value => [{ name, value }]
    | .bareName name => [{ name, value := [] }]
    | _ => []
  | segment :: next :: rest =>
    match readSegment segment with
    | .nothing => walk (next :: rest)
    | .pair name value => { name, value } :: walk (next :: rest)
    | .bareAttribute => walk rest
    | .bareName name => { name, value := ' '.toUInt8 :: next } :: walk rest

theorem joinSegments_append {segments : List (List UInt8)} (some : segments ≠ []) :
    joinSegments segments ++ ascii ";" = rendered segments := by
  have separators : ascii "; " = [';'.toUInt8, ' '.toUInt8] ∧ ascii ";" = [';'.toUInt8] := by
    decide
  rw [joinSegments, separators.1, separators.2]
  induction segments with
  | nil => exact absurd rfl some
  | cons segment rest inductionHypothesis =>
    cases rest with
    | nil => rw [List.intercalate_singleton, rendered]
    | cons next more =>
      rw [List.intercalate_cons_cons, List.append_assoc, inductionHypothesis (by simp), rendered]

/-- A name without `=` and without `;` is searched to its end. -/
theorem plain_of_not_mem {name : List UInt8} (noEquals : '='.toUInt8 ∉ name)
    (noSemicolon : ';'.toUInt8 ∉ name) : ∀ character ∈ name, character ∉ ascii "=;" := by
  intro character member separates
  rcases mem_separators.mp separates with rfl | rfl
  · exact noEquals member
  · exact noSemicolon member

/-- Behind a value that is the last segment no end is found. -/
theorem occurrence_last {value : List UInt8} (plain : ';'.toUInt8 ∉ value) :
    occurrence (ascii "; ") (rendered [value]) = none := by
  rw [show ascii "; " = [';'.toUInt8, ' '.toUInt8] by decide, rendered]
  exact occurrence_concat plain

/-- Behind a value the end is found at the next segment. -/
theorem occurrence_rendered {value next : List UInt8} {rest : List (List UInt8)}
    (plain : ';'.toUInt8 ∉ value) :
    occurrence (ascii "; ") (rendered (value :: next :: rest)) = some value.length := by
  rw [show ascii "; " = [';'.toUInt8, ' '.toUInt8] by decide, rendered]
  exact occurrence_append plain

section Rendered

variable {cookie name value : List UInt8} {startPos : ℕ} {separator : UInt8}
  {rest : List (List UInt8)}

/-- A name that is no flag is given the text up to the next segment, and the parser goes on with
the rest. -/
theorem finds_value (left : cookie.drop startPos = name ++ separator :: rendered (value :: rest))
    (plain : ∀ character ∈ name, character ∉ ascii "=;") (ends : separator ∈ ascii "=;")
    (noFlag : kindOf name ≠ .flag) (noSemicolon : ';'.toUInt8 ∉ value)
    (later : ∀ further, cookie.drop further = rendered rest → Finds cookie further (walk rest)) :
    Finds cookie startPos ((kindOf name).emplaced value ++ walk rest) := by
  have pass := pass_eq left plain ends
  cases rest with
  | nil =>
    have whole : (rendered [value]).dropLast = value := List.dropLast_concat
    rw [occurrence_last noSemicolon] at pass
    rw [walk, List.append_nil]
    refine .last ?_
    cases kind : kindOf name with
    | flag => exact absurd kind noFlag
    | option => rw [pass, kind]; rfl
    | cookie stripped => rw [pass, kind, whole]
  | cons next more =>
    have cut : (rendered (value :: next :: more)).take value.length = value := by
      rw [rendered, List.append_assoc, List.take_left]
    rw [occurrence_rendered noSemicolon] at pass
    have behind : cookie.drop (startPos + name.length + 1 + value.length + 2) =
        rendered (next :: more) := by
      have first : cookie.drop (startPos + name.length + 1) = rendered (value :: next :: more) := by
        rw [← List.drop_drop, drop_of_drop left, List.drop_succ_cons, List.drop_zero]
      rw [← List.drop_drop, ← List.drop_drop, first, rendered, List.append_assoc, List.drop_left]
      rfl
    refine .more ?_ (later _ behind)
    cases kind : kindOf name with
    | flag => exact absurd kind noFlag
    | option => rw [pass, kind]; rfl
    | cookie stripped =>
      rw [pass, kind]
      dsimp only
      rw [cut]

/-- What a segment without `=` reads as. -/
theorem readSegment_bare {segment : List UInt8} (noEquals : '='.toUInt8 ∉ segment) :
    readSegment segment =
      match kindOf segment with
      | .flag => .nothing
      | .option => .bareAttribute
      | .cookie name => .bareName name := by
  rw [readSegment]
  split
  · rfl
  · rename_i found
    rw [after_of_not_mem noEquals] at found
    cases found

/-- What a segment with a name and a value reads as. -/
theorem readSegment_pair (noEquals : '='.toUInt8 ∉ name) (value : List UInt8) :
    readSegment (name ++ '='.toUInt8 :: value) =
      match kindOf name with
      | .flag => readSegment value
      | .option => .nothing
      | .cookie stripped => .pair stripped value := by
  rw [readSegment]
  split
  · rename_i found
    rw [after_append_cons noEquals] at found
    cases found
  · rename_i found
    rw [after_append_cons noEquals, Option.some.injEq] at found
    rw [before_append_cons noEquals, ← found]

end Rendered

/-! ### The walk -/

section Walk

variable {segment next name value : List UInt8} {rest : List (List UInt8)}

theorem walk_of_nothing (reads : readSegment segment = .nothing) :
    walk (segment :: rest) = walk rest := by
  cases rest with
  | nil => simp only [walk, reads]
  | cons next more => simp only [walk, reads]

theorem walk_of_pair (reads : readSegment segment = .pair name value) :
    walk (segment :: rest) = { name, value } :: walk rest := by
  cases rest with
  | nil => simp only [walk, reads]
  | cons next more => simp only [walk, reads]

theorem walk_of_bareAttribute (reads : readSegment segment = .bareAttribute) :
    walk (segment :: rest) = walk (rest.drop 1) := by
  cases rest with
  | nil => simp only [walk, reads, List.drop_nil]
  | cons next more => simp only [walk, reads, List.drop_succ_cons, List.drop_zero]

theorem walk_last_of_bareName (reads : readSegment segment = .bareName name) :
    walk [segment] = [{ name, value := [] }] := by
  simp only [walk, reads]

theorem walk_of_bareName (reads : readSegment segment = .bareName name) :
    walk (segment :: next :: rest) =
      { name, value := ' '.toUInt8 :: next } :: walk rest := by
  simp only [walk, reads]

/-- What is found in the segments depends on how the first one reads. -/
theorem walk_congr {other : List UInt8} (same : readSegment segment = readSegment other)
    (rest : List (List UInt8)) : walk (segment :: rest) = walk (other :: rest) := by
  cases rest with
  | nil => rw [walk, walk, same]
  | cons next more => rw [walk, walk, same]

/-- A segment with a name and a value swallows nothing. -/
theorem walk_pair (noEquals : '='.toUInt8 ∉ name) (noFlag : kindOf name ≠ .flag) :
    walk ((name ++ '='.toUInt8 :: value) :: rest) = (kindOf name).emplaced value ++ walk rest := by
  have reads := readSegment_pair noEquals value
  cases kind : kindOf name with
  | flag => exact absurd kind noFlag
  | option =>
    rw [kind] at reads
    exact walk_of_nothing reads
  | cookie stripped =>
    rw [kind] at reads
    exact walk_of_pair reads

/-- A name without a value is given the next segment. -/
theorem walk_bare (noEquals : '='.toUInt8 ∉ segment) (noFlag : kindOf segment ≠ .flag) :
    walk (segment :: next :: rest) =
      (kindOf segment).emplaced (' '.toUInt8 :: next) ++ walk rest := by
  have reads := readSegment_bare noEquals
  cases kind : kindOf segment with
  | flag => exact absurd kind noFlag
  | option =>
    rw [kind] at reads
    exact walk_of_bareAttribute reads
  | cookie stripped =>
    rw [kind] at reads
    exact walk_of_bareName reads

theorem walk_bare_last (noEquals : '='.toUInt8 ∉ segment) (noFlag : kindOf segment ≠ .flag) :
    walk [segment] = (kindOf segment).emplaced [] := by
  have reads := readSegment_bare noEquals
  cases kind : kindOf segment with
  | flag => exact absurd kind noFlag
  | option =>
    rw [kind] at reads
    exact walk_of_bareAttribute reads
  | cookie stripped =>
    rw [kind] at reads
    exact walk_last_of_bareName reads

end Walk

section Finds

variable {cookie : List UInt8} {startPos : ℕ}

theorem rendered_append (front segment : List UInt8) (rest : List (List UInt8)) :
    rendered ((front ++ segment) :: rest) = front ++ rendered (segment :: rest) := by
  cases rest with
  | nil => rw [rendered, rendered, List.append_assoc]
  | cons next more => rw [rendered, rendered, List.append_assoc, List.append_assoc,
      List.append_assoc]

theorem rendered_pair (name value : List UInt8) (rest : List (List UInt8)) :
    rendered ((name ++ '='.toUInt8 :: value) :: rest) =
      name ++ '='.toUInt8 :: rendered (value :: rest) := by
  rw [rendered_append]
  exact congrArg (name ++ ·) (rendered_append ['='.toUInt8] value rest)

theorem rendered_blank (segment : List UInt8) (rest : List (List UInt8)) :
    rendered ((' '.toUInt8 :: segment) :: rest) = ' '.toUInt8 :: rendered (segment :: rest) :=
  rendered_append [' '.toUInt8] segment rest

theorem rendered_bare (segment next : List UInt8) (more : List (List UInt8)) :
    rendered (segment :: next :: more) =
      segment ++ ';'.toUInt8 :: rendered ((' '.toUInt8 :: next) :: more) := by
  rw [rendered_blank, rendered, List.append_assoc]
  rfl

theorem length_rendered_lt (segment : List UInt8) (rest : List (List UInt8)) :
    (rendered rest).length < (rendered (segment :: rest)).length := by
  cases rest with
  | nil => simp [rendered]
  | cons next more =>
    rw [rendered, List.length_append, List.length_append, List.length_cons]
    omega

/-- A flag is skipped with its separator. -/
theorem finds_flag {name text : List UInt8} {separator : UInt8} {found : List Cookie}
    (left : cookie.drop startPos = name ++ separator :: text)
    (plain : ∀ character ∈ name, character ∉ ascii "=;") (ends : separator ∈ ascii "=;")
    (flag : kindOf name = .flag)
    (later : ∀ further,
      cookie.drop further = text.drop (if separator = ';'.toUInt8 then 1 else 0) →
        Finds cookie further found) : Finds cookie startPos found := by
  have pass := pass_eq left plain ends
  rw [flag] at pass
  refine .more pass (later _ ?_)
  rw [← List.drop_drop, drop_of_drop left]
  split
  · rfl
  · rfl

/-- The parser finds what a walk finds wherever it meets a text of segments of less than `size`. -/
def FindsBelow (cookie : List UInt8) (size : ℕ) : Prop :=
  ∀ (segments : List (List UInt8)) (startPos : ℕ), (rendered segments).length < size →
    (∀ segment ∈ segments, ';'.toUInt8 ∉ segment) → cookie.drop startPos = rendered segments →
      Finds cookie startPos (walk segments)

section FindsBelow

variable {segment name value next : List UInt8} {rest more : List (List UInt8)}

/-- A segment with a `=`: the rest of it is the value, or the next segment after a flag. -/
theorem FindsBelow.pair
    (below : FindsBelow cookie (rendered ((name ++ '='.toUInt8 :: value) :: rest)).length)
    (noEquals : '='.toUInt8 ∉ name) (plainName : ';'.toUInt8 ∉ name)
    (plainValue : ';'.toUInt8 ∉ value) (others : ∀ segment ∈ rest, ';'.toUInt8 ∉ segment)
    (left : cookie.drop startPos = rendered ((name ++ '='.toUInt8 :: value) :: rest)) :
    Finds cookie startPos (walk ((name ++ '='.toUInt8 :: value) :: rest)) := by
  have ends : '='.toUInt8 ∈ ascii "=;" := by decide
  have names := plain_of_not_mem noEquals plainName
  have shorter := length_rendered_lt value rest
  rw [rendered_pair, List.length_append, List.length_cons] at below
  rw [rendered_pair] at left
  by_cases flag : kindOf name = .flag
  · have reads := readSegment_pair noEquals value
    rw [flag] at reads
    rw [walk_congr reads]
    refine finds_flag left names ends flag fun further behind => ?_
    exact below (value :: rest) further (by omega)
      (List.forall_mem_cons.mpr ⟨plainValue, others⟩) behind
  · rw [walk_pair noEquals flag]
    refine finds_value left names ends flag plainValue fun further behind => ?_
    exact below rest further (by omega) others behind

/-- A last segment without a `=`. -/
theorem FindsBelow.bare_last (below : FindsBelow cookie (rendered [segment]).length)
    (noEquals : '='.toUInt8 ∉ segment) (plain : ';'.toUInt8 ∉ segment)
    (left : cookie.drop startPos = rendered [segment]) :
    Finds cookie startPos (walk [segment]) := by
  have ends : ';'.toUInt8 ∈ ascii "=;" := by decide
  have names := plain_of_not_mem noEquals plain
  have shorter := length_rendered_lt segment []
  rw [rendered] at left
  by_cases flag : kindOf segment = .flag
  · have reads := readSegment_bare noEquals
    rw [flag] at reads
    rw [walk_of_nothing reads]
    refine finds_flag left names ends flag fun further behind => ?_
    exact below [] further shorter (fun _ impossible => absurd impossible List.not_mem_nil) behind
  · have pass := pass_eq left names ends
    rw [walk_bare_last noEquals flag]
    refine .last (pass.trans ?_)
    cases kind : kindOf segment with
    | flag => exact absurd kind flag
    | option => rfl
    | cookie stripped => rfl

/-- A segment without a `=` before others: the next segment, with its blank, is the value. -/
theorem FindsBelow.bare (below : FindsBelow cookie (rendered (segment :: next :: more)).length)
    (noEquals : '='.toUInt8 ∉ segment) (plain : ';'.toUInt8 ∉ segment)
    (others : ∀ segment ∈ next :: more, ';'.toUInt8 ∉ segment)
    (left : cookie.drop startPos = rendered (segment :: next :: more)) :
    Finds cookie startPos (walk (segment :: next :: more)) := by
  have ends : ';'.toUInt8 ∈ ascii "=;" := by decide
  have names := plain_of_not_mem noEquals plain
  have shorter := length_rendered_lt next more
  have smaller := length_rendered_lt segment (next :: more)
  rw [rendered_bare] at left
  obtain ⟨nextPlain, morePlain⟩ := List.forall_mem_cons.mp others
  by_cases flag : kindOf segment = .flag
  · have reads := readSegment_bare noEquals
    rw [flag] at reads
    rw [walk_of_nothing reads]
    refine finds_flag left names ends flag fun further behind => ?_
    refine below (next :: more) further smaller others (behind.trans ?_)
    rw [if_pos rfl, rendered_blank, List.drop_succ_cons, List.drop_zero]
  · rw [walk_bare noEquals flag]
    have value : ';'.toUInt8 ∉ ' '.toUInt8 :: next := by
      rw [List.mem_cons, not_or]
      exact ⟨by decide, nextPlain⟩
    refine finds_value left names ends flag value fun further behind => ?_
    exact below more further (by omega) morePlain behind

end FindsBelow

/-- The parser finds in a text of segments what a walk over the segments finds. -/
theorem finds_rendered (segments : List (List UInt8))
    (plain : ∀ segment ∈ segments, ';'.toUInt8 ∉ segment)
    (left : cookie.drop startPos = rendered segments) :
    Finds cookie startPos (walk segments) := by
  -- Every pass reads some of the text, and what is left is a text of segments again.
  induction measure : (rendered segments).length using Nat.strongRecOn
    generalizing segments startPos with
  | ind size inductionHypothesis =>
    have below : FindsBelow cookie (rendered segments).length :=
      fun others further smaller othersPlain behind =>
        inductionHypothesis _ (measure ▸ smaller) others othersPlain behind rfl
    cases segments with
    | nil =>
      refine .last (pass_of_not_found (findFirstOf_eq_none ?_))
      rw [left]
      exact fun _ impossible => absurd impossible List.not_mem_nil
    | cons segment rest =>
      obtain ⟨noSemicolon, others⟩ := List.forall_mem_cons.mp plain
      by_cases equals : '='.toUInt8 ∈ segment
      · obtain ⟨name, value, rfl, noEquals⟩ := List.eq_append_cons_of_mem equals
        rw [List.mem_append, List.mem_cons, not_or, not_or] at noSemicolon
        exact below.pair noEquals noSemicolon.1 noSemicolon.2.2 others left
      · cases rest with
        | nil => exact below.bare_last equals noSemicolon left
        | cons next more => exact below.bare equals noSemicolon others left

/-- What `parse_cookie` returns for joined segments. -/
theorem parseCookie_joinSegments (segments : List (List UInt8)) (some : segments ≠ [])
    (plain : ∀ segment ∈ segments, ';'.toUInt8 ∉ segment) :
    parseCookie (joinSegments segments) = .some (.ok (walk segments)) := by
  refine Finds.parseCookie (finds_rendered segments plain ?_)
  rw [List.drop_zero, joinSegments_append some]

theorem parseCookie_segment {segment : List UInt8} (plain : ';'.toUInt8 ∉ segment) :
    parseCookie segment = .some (.ok (walk [segment])) := by
  have alone := parseCookie_joinSegments [segment] (by simp)
    (List.forall_mem_singleton.mpr plain)
  rwa [joinSegments, List.intercalate_singleton] at alone

end Finds

/-! ### Segments together and alone -/

/-- Reading the segment finds no cookie. -/
def Reading.isSilent : Reading → Bool
  | .nothing => true
  | .bareAttribute => true
  | _ => false

/-- No name without a value stands before another segment, but for the names of attributes before a
segment that says nothing. -/
def Composes : List (List UInt8) → Prop
  | segment :: next :: rest =>
    match readSegment segment with
    | .nothing => Composes (next :: rest)
    | .pair _ _ => Composes (next :: rest)
    | .bareAttribute => (readSegment next).isSilent = true ∧ Composes rest
    | .bareName _ => False
  | _ => True

/-- What is found in the segments when each is parsed on its own. -/
def walkAlone (segments : List (List UInt8)) : List Cookie :=
  segments.flatMap fun segment => walk [segment]

/-- A segment that says nothing gives no cookie on its own, and any other gives one. -/
theorem walk_segment_eq_nil {segment : List UInt8} :
    walk [segment] = [] ↔ (readSegment segment).isSilent = true := by
  cases reads : readSegment segment with
  | nothing => simp [walk, reads, Reading.isSilent]
  | pair name value => simp [walk, reads, Reading.isSilent]
  | bareAttribute => simp [walk, reads, Reading.isSilent]
  | bareName name => simp [walk, reads, Reading.isSilent]

/-- Where the segments compose, they are found together as they are found alone. -/
theorem walk_of_composes : ∀ segments : List (List UInt8), Composes segments →
    walk segments = walkAlone segments
  | [], _ => rfl
  | [segment], _ => by simp [walkAlone]
  | segment :: next :: rest, composes => by
    have alone : walkAlone (segment :: next :: rest) =
        walk [segment] ++ walkAlone (next :: rest) := List.flatMap_cons
    rw [Composes] at composes
    rw [alone]
    cases reads : readSegment segment with
    | nothing =>
      rw [reads] at composes
      rw [walk_of_nothing reads, walk_of_nothing reads, walk_of_composes (next :: rest) composes]
      rfl
    | pair name value =>
      rw [reads] at composes
      rw [walk_of_pair reads, walk_of_pair reads, walk_of_composes (next :: rest) composes]
      rfl
    | bareAttribute =>
      rw [reads] at composes
      have silent := walk_segment_eq_nil.mpr composes.1
      have others : walkAlone (next :: rest) = walk [next] ++ walkAlone rest := List.flatMap_cons
      rw [walk_of_bareAttribute reads, walk_of_bareAttribute reads, others, silent,
        List.drop_succ_cons, List.drop_zero, walk_of_composes rest composes.2]
      rfl
    | bareName name =>
      rw [reads] at composes
      exact absurd composes id

/-- The number of cookies, with those that have no value counted twice. -/
def weight (cookies : List Cookie) : ℕ :=
  cookies.length + cookies.countP (·.value = [])

theorem weight_append (cookies more : List Cookie) :
    weight (cookies ++ more) = weight cookies + weight more := by
  rw [weight, List.length_append, List.countP_append, weight, weight]
  omega

theorem weight_cons (cookie : Cookie) (more : List Cookie) :
    weight (cookie :: more) = weight [cookie] + weight more :=
  weight_append [cookie] more

/-- A swallowed segment weighs nothing, and the one that swallows it weighs less than alone. -/
theorem weight_walk_le : ∀ segments : List (List UInt8),
    weight (walk segments) ≤ weight (walkAlone segments) ∧
      (¬ Composes segments → weight (walk segments) < weight (walkAlone segments))
  | [] => ⟨Nat.le_refl _, fun broken => absurd trivial broken⟩
  | [segment] => by
    have alone : walkAlone [segment] = walk [segment] := List.append_nil _
    rw [alone]
    exact ⟨Nat.le_refl _, fun broken => absurd trivial broken⟩
  | segment :: next :: rest => by
    have alone : walkAlone (segment :: next :: rest) =
        walk [segment] ++ walkAlone (next :: rest) := List.flatMap_cons
    have others : walkAlone (next :: rest) = walk [next] ++ walkAlone rest := List.flatMap_cons
    have together := weight_walk_le (next :: rest)
    have behind := weight_walk_le rest
    rw [alone, weight_append, Composes]
    cases reads : readSegment segment with
    | nothing =>
      rw [walk_of_nothing reads, walk_of_nothing reads]
      exact ⟨by omega, fun broken => by have := together.2 broken; omega⟩
    | pair name value =>
      rw [walk_of_pair reads, walk_of_pair reads, weight_cons]
      exact ⟨by rw [walk]; omega, fun broken => by rw [walk]; have := together.2 broken; omega⟩
    | bareAttribute =>
      rw [walk_of_bareAttribute reads, walk_of_bareAttribute reads, List.drop_succ_cons,
        List.drop_zero, others, weight_append]
      refine ⟨by omega, fun broken => ?_⟩
      by_cases silent : (readSegment next).isSilent = true
      · have := behind.2 fun composes => broken ⟨silent, composes⟩
        omega
      · have found : walk [next] ≠ [] := fun nothing => silent (walk_segment_eq_nil.mp nothing)
        have heavy : 0 < weight (walk [next]) :=
          Nat.add_pos_left (List.length_pos_iff.mpr found) _
        omega
    | bareName name =>
      rw [walk_of_bareName reads, walk_last_of_bareName reads, weight_cons, others, weight_append]
      have given : weight [{ name, value := ' '.toUInt8 :: next }] = 1 := by simp [weight]
      have empty : weight [{ name, value := [] }] = 2 := by simp [weight]
      rw [given, empty]
      exact ⟨by omega, fun _ => by omega⟩

/-- `parse_cookie` of the joined segments gives the cookies that it gives for each segment on its
own. -/
def UnionOfSegments (segments : List (List UInt8)) : Prop :=
  ∃ (joined : List Cookie) (parts : List (List Cookie)),
    parseCookie (joinSegments segments) = some (.ok joined) ∧
      segments.map parseCookie = parts.map (fun part => some (.ok part)) ∧
      joined.Perm parts.flatten

/-- The joined segments give what each gives on its own exactly when none of them swallows the next
one, or both say nothing. -/
theorem parse_cookie_union_iff {segments : List (List UInt8)} (some : segments ≠ [])
    (plain : ∀ segment ∈ segments, segment ≠ [] ∧ ';'.toUInt8 ∉ segment) :
    UnionOfSegments segments ↔ Composes segments := by
  have noSemicolon : ∀ segment ∈ segments, ';'.toUInt8 ∉ segment :=
    fun segment member => (plain segment member).2
  have together := parseCookie_joinSegments segments some noSemicolon
  have separately : segments.map parseCookie =
      (segments.map fun segment => walk [segment]).map fun part => .some (.ok part) := by
    rw [List.map_map]
    exact List.map_congr_left fun segment member =>
      parseCookie_segment (noSemicolon segment member)
  constructor
  · rintro ⟨joined, parts, first, second, same⟩
    rw [together, Option.some.injEq, Except.ok.injEq] at first
    have each : segments.map (fun segment => walk [segment]) = parts := by
      rw [separately] at second
      refine List.map_injective_iff.mpr ?_ second
      intro one other equal
      exact Except.ok.inj (Option.some.inj equal)
    rw [← first, ← each, ← List.flatMap_def] at same
    have balanced : weight (walk segments) = weight (walkAlone segments) := by
      rw [weight, same.length_eq, same.countP_eq]
      rfl
    by_contra broken
    exact absurd balanced (Nat.ne_of_lt ((weight_walk_le segments).2 broken))
  · intro composes
    refine ⟨walk segments, segments.map fun segment => walk [segment], together, separately, ?_⟩
    rw [walk_of_composes segments composes, walkAlone, List.flatMap_def]

theorem parse_cookie_union_iff_pairThenFlag :
    UnionOfSegments [ascii "a=1", ascii "Secure", ascii "b"] := by
  have noEquals : '='.toUInt8 ∉ ascii "a" := by decide
  have pair : readSegment (ascii "a=1") = .pair (ascii "a") (ascii "1") :=
    (readSegment_pair noEquals (ascii "1")).trans (by decide +kernel)
  have flag : readSegment (ascii "Secure") = .nothing :=
    (readSegment_bare (by decide)).trans (by decide +kernel)
  refine (parse_cookie_union_iff (by decide) (by decide)).mpr ?_
  simp only [Composes, pair, flag]

/-- A name without a value swallows the cookie behind it. -/
theorem cookie_swallowed :
    parseCookie (joinSegments [ascii "foo", ascii "bar=1"]) =
        some (.ok [{ name := ascii "foo", value := ascii " bar=1" }]) ∧
      parseCookie (ascii "foo") = some (.ok [{ name := ascii "foo", value := [] }]) ∧
      parseCookie (ascii "bar=1") =
        some (.ok [{ name := ascii "bar", value := ascii "1" }]) ∧
      ¬ UnionOfSegments [ascii "foo", ascii "bar=1"] := by
  have joined : parseCookie (joinSegments [ascii "foo", ascii "bar=1"]) =
      some (.ok [{ name := ascii "foo", value := ascii " bar=1" }]) := by
    decide +kernel
  have first : parseCookie (ascii "foo") =
      some (.ok [{ name := ascii "foo", value := [] }]) := by
    decide +kernel
  have second : parseCookie (ascii "bar=1") =
      some (.ok [{ name := ascii "bar", value := ascii "1" }]) := by
    decide +kernel
  refine ⟨joined, first, second, ?_⟩
  rintro ⟨together, parts, whole, each, same⟩
  rw [joined, Option.some.injEq, Except.ok.injEq] at whole
  match parts, each, same with
  | [one, other], each, same =>
    simp only [List.map_cons, List.map_nil, first, second, List.cons.injEq, Option.some.injEq,
      Except.ok.injEq, and_true] at each
    rw [← whole, ← each.1, ← each.2] at same
    exact absurd same.length_eq (by decide)
  | [], each, _ => exact absurd each (by simp)
  | [_], each, _ => exact absurd each (by simp)
  | _ :: _ :: _ :: _, each, _ => exact absurd each (by simp)

/-! ### What is written is read back -/

/-- The segments that `to_cookie_string` writes for a cookie. -/
def cookieSegments (cookie : Cookie) : List (List UInt8) :=
  (cookie.name ++ '='.toUInt8 :: cookie.value) ::
    ((if cookie.path.isEmpty then [] else [ascii "Path" ++ '='.toUInt8 :: cookie.path]) ++
      if cookie.expirationDate ≠ 0 then
        [ascii "Expires" ++ '='.toUInt8 :: ascii cookie.expirationDate.toNat.repr]
      else [])

/-- The first segment, and every other with a separator before it. -/
theorem joinSegments_cons (segment : List UInt8) (rest : List (List UInt8)) :
    joinSegments (segment :: rest) = segment ++ rest.flatMap (ascii "; " ++ ·) := by
  induction rest generalizing segment with
  | nil => simp [joinSegments]
  | cons next more inductionHypothesis =>
    rw [joinSegments, List.intercalate_cons_cons, ← joinSegments, inductionHypothesis,
      List.flatMap_cons, List.append_assoc, List.append_assoc]

/-- One cookie is written as its segments. -/
theorem appendCookies_cons (first : Bool) (cookie : Cookie) (rest : List Cookie)
    (result : List UInt8) : appendCookies first (cookie :: rest) result =
      appendCookies false rest ((if first then result else result ++ ascii "; ") ++
        joinSegments (cookieSegments cookie)) := by
  have path : ascii "; Path=" = ascii "; " ++ (ascii "Path" ++ ['='.toUInt8]) := by decide
  have expires : ascii "; Expires=" = ascii "; " ++ (ascii "Expires" ++ ['='.toUInt8]) := by decide
  have equals : ascii "=" = ['='.toUInt8] := by decide
  rw [appendCookies, cookieSegments, joinSegments_cons, path, expires, equals]
  split_ifs <;> simp

theorem appendCookies_false (cookies : List Cookie) (result : List UInt8) :
    appendCookies false cookies result =
      result ++ (cookies.flatMap cookieSegments).flatMap (ascii "; " ++ ·) := by
  induction cookies generalizing result with
  | nil => exact (List.append_nil result).symm
  | cons cookie rest inductionHypothesis =>
    rw [appendCookies_cons, inductionHypothesis, List.flatMap_cons, List.flatMap_append,
      cookieSegments, joinSegments_cons]
    simp

/-- `to_cookie_string` joins the segments of the cookies. -/
theorem toCookieString_eq {cookies : List Cookie} (some : cookies ≠ []) :
    toCookieString cookies = joinSegments (cookies.flatMap cookieSegments) := by
  cases cookies with
  | nil => exact absurd rfl some
  | cons cookie rest =>
    rw [toCookieString, appendCookies_cons, appendCookies_false, List.flatMap_cons, cookieSegments,
      List.cons_append, joinSegments_cons, joinSegments_cons, List.flatMap_append]
    simp

/-- A cookie that the parser can take for nothing else, were it not for names it shortens. -/
structure PlainCookie (cookie : Cookie) : Prop where
  named : cookie.name ≠ []
  noEquals : '='.toUInt8 ∉ cookie.name
  noSemicolon : ';'.toUInt8 ∉ cookie.name
  noAttribute : ∀ name ∈ optionNames ++ flagNames,
    caseInsensitiveEqual cookie.name name = false
  notSecure : ¬ ascii "__Secure-" <+: cookie.name
  notHost : ¬ ascii "__Host-" <+: cookie.name
  value : ';'.toUInt8 ∉ cookie.value
  path : ';'.toUInt8 ∉ cookie.path

/-- The name under which the parser returns a cookie. -/
def shortName (name : List UInt8) : List UInt8 :=
  if isShortened name then (after '-'.toUInt8 name).getD name else name

section Written

variable {cookie : Cookie} {cookies : List Cookie}

theorem PlainCookie.kindOf (plain : PlainCookie cookie) :
    kindOf cookie.name = .cookie (shortName cookie.name) := by
  have noName (names : List (List UInt8)) (among : names ⊆ optionNames ++ flagNames) :
      names.any (caseInsensitiveEqual cookie.name) = false := by
    rw [List.any_eq_false]
    intro name member
    rw [plain.noAttribute name (among member)]
    exact Bool.false_ne_true
  rw [Utils.kindOf, shortName]
  split_ifs with shortened option flag
  · rfl
  · rw [noName optionNames (List.subset_append_left _ _)] at option
    cases option
  · rw [noName flagNames (List.subset_append_right _ _)] at flag
    cases flag
  · rfl

/-- The digits of a date hold no separator. -/
theorem semicolon_not_mem_repr (number : ℕ) : ';'.toUInt8 ∉ ascii number.repr :=
  fun member => absurd (isdigit_of_mem_repr number _ member) (by decide)

theorem PlainCookie.segments (plain : PlainCookie cookie) :
    ∀ segment ∈ cookieSegments cookie, ';'.toUInt8 ∉ segment := by
  have joined {name value : List UInt8} (noName : ';'.toUInt8 ∉ name)
      (noValue : ';'.toUInt8 ∉ value) : ';'.toUInt8 ∉ name ++ '='.toUInt8 :: value := by
    rw [List.mem_append, List.mem_cons, not_or, not_or]
    exact ⟨noName, by decide, noValue⟩
  rw [cookieSegments]
  refine List.forall_mem_cons.mpr ⟨joined plain.noSemicolon plain.value, ?_⟩
  refine List.forall_mem_append.mpr ⟨?_, ?_⟩
  · split
    · exact fun _ impossible => absurd impossible List.not_mem_nil
    · exact List.forall_mem_singleton.mpr (joined (by decide) plain.path)
  · split
    · exact List.forall_mem_singleton.mpr (joined (by decide) (semicolon_not_mem_repr _))
    · exact fun _ impossible => absurd impossible List.not_mem_nil

/-- The attributes of a cookie are skipped. -/
theorem PlainCookie.walk (plain : PlainCookie cookie) (rest : List (List UInt8)) :
    walk (cookieSegments cookie ++ rest) =
      { name := shortName cookie.name, value := cookie.value } :: walk rest := by
  have path : Utils.kindOf (ascii "Path") = .option := by decide +kernel
  have expires : Utils.kindOf (ascii "Expires") = .option := by decide +kernel
  have attributes : Utils.walk ((if cookie.path.isEmpty then []
      else [ascii "Path" ++ '='.toUInt8 :: cookie.path]) ++
        ((if cookie.expirationDate ≠ 0 then
          [ascii "Expires" ++ '='.toUInt8 :: ascii cookie.expirationDate.toNat.repr]
        else []) ++ rest)) = Utils.walk rest := by
    have dated : Utils.walk ((if cookie.expirationDate ≠ 0 then
        [ascii "Expires" ++ '='.toUInt8 :: ascii cookie.expirationDate.toNat.repr]
        else []) ++ rest) = Utils.walk rest := by
      split
      · rw [List.singleton_append, walk_pair (by decide) (by rw [expires]; decide), expires]
        rfl
      · rfl
    split
    · exact dated
    · rw [List.singleton_append, walk_pair (by decide) (by rw [path]; decide), path, dated]
      rfl
  rw [cookieSegments, List.cons_append, walk_pair plain.noEquals (by rw [plain.kindOf]; simp),
    plain.kindOf, List.append_assoc, attributes]
  rfl

/-- What `parse_cookie` gives back of what `to_cookie_string` writes. -/
theorem parseCookie_toCookieString (some : cookies ≠ [])
    (plain : ∀ cookie ∈ cookies, PlainCookie cookie) :
    parseCookie (toCookieString cookies) = .some (.ok (cookies.map fun cookie =>
      { name := shortName cookie.name, value := cookie.value })) := by
  have segments : cookies.flatMap cookieSegments ≠ [] := by
    obtain ⟨cookie, rest, rfl⟩ := List.exists_cons_of_ne_nil some
    rw [List.flatMap_cons, cookieSegments]
    exact List.cons_ne_nil _ _
  have separate : ∀ segment ∈ cookies.flatMap cookieSegments, ';'.toUInt8 ∉ segment := by
    intro segment member
    obtain ⟨cookie, written, inside⟩ := List.mem_flatMap.mp member
    exact (plain cookie written).segments segment inside
  rw [toCookieString_eq some, parseCookie_joinSegments _ segments separate]
  clear some segments separate
  induction cookies with
  | nil => rfl
  | cons cookie rest inductionHypothesis =>
    obtain ⟨first, others⟩ := List.forall_mem_cons.mp plain
    have found := inductionHypothesis others
    rw [Option.some.injEq, Except.ok.injEq] at found
    rw [List.flatMap_cons, first.walk, List.map_cons, found]

/-- A name that is shortened loses a character at least. -/
theorem length_shortName (name : List UInt8) : (shortName name).length ≤ name.length ∧
    (isShortened name = true → '-'.toUInt8 ∈ name → (shortName name).length < name.length) := by
  unfold shortName
  split
  · rename_i shortened
    cases found : after '-'.toUInt8 name with
    | none =>
      refine ⟨Nat.le_refl _, fun _ dash => ?_⟩
      obtain ⟨front, rest, rfl, absent⟩ := List.eq_append_cons_of_mem dash
      rw [after_append_cons absent] at found
      cases found
    | some rest =>
      have shorter := length_after_lt found
      exact ⟨Nat.le_of_lt shorter, fun _ _ => shorter⟩
  · rename_i kept
    exact ⟨Nat.le_refl _, fun shortened => absurd shortened kept⟩

/-- `parse_cookie` gives back the names and values that `to_cookie_string` was given. -/
def ReadsBack (cookies : List Cookie) : Prop :=
  ∃ parsed, parseCookie (toCookieString cookies) = some (.ok parsed) ∧
    (parsed.map fun cookie => (cookie.name, cookie.value)).Perm
      (cookies.map fun cookie => (cookie.name, cookie.value))

/-- The cookies are read back exactly when no name longer than `__Host-` begins with `__` and has a
`-` in it. -/
theorem cookies_read_back_iff (some : cookies ≠ [])
    (plain : ∀ cookie ∈ cookies, PlainCookie cookie) :
    ReadsBack cookies ↔ ∀ cookie ∈ cookies,
      ¬ (isShortened cookie.name = true ∧ '-'.toUInt8 ∈ cookie.name) := by
  have read := parseCookie_toCookieString some plain
  constructor
  · rintro ⟨parsed, whole, same⟩ cookie member ⟨shortened, dash⟩
    rw [read, Option.some.injEq, Except.ok.injEq] at whole
    rw [← whole, List.map_map] at same
    -- The names together are as long as before, and none of them is longer.
    have total := (same.map fun pair => pair.1.length).sum_eq
    rw [List.map_map, List.map_map] at total
    refine absurd total (Nat.ne_of_lt (List.sum_lt_sum _ _ ?_ ⟨cookie, member, ?_⟩))
    · exact fun other _ => (length_shortName other.name).1
    · exact (length_shortName cookie.name).2 shortened dash
  · intro kept
    refine ⟨_, read, ?_⟩
    rw [List.map_map]
    refine List.Perm.of_eq (List.map_congr_left fun cookie member => ?_)
    have same : shortName cookie.name = cookie.name := by
      unfold shortName
      split
      · rename_i shortened
        rw [after_of_not_mem fun dash => kept cookie member ⟨shortened, dash⟩]
        rfl
      · rfl
    simp only [Function.comp_apply, same]

theorem cookies_read_back_iff_session :
    ReadsBack [{ name := ascii "session", value := ascii "a=b", path := ascii "/" },
      { name := ascii "__id", value := [], expirationDate := 7 }] := by
  refine (cookies_read_back_iff (by decide) ?_).mpr (by decide +kernel)
  refine List.forall_mem_cons.mpr ⟨?_, List.forall_mem_singleton.mpr ?_⟩
  · constructor <;> decide +kernel
  · constructor <;> decide +kernel

/-- A name that only begins like `__Secure-` or `__Host-` is shortened too. -/
theorem name_shortened :
    PlainCookie { name := ascii "__csrf-token", value := ascii "1" } ∧
      parseCookie (toCookieString [{ name := ascii "__csrf-token", value := ascii "1" }]) =
        some (.ok [{ name := ascii "token", value := ascii "1" }]) ∧
      ¬ ReadsBack [{ name := ascii "__csrf-token", value := ascii "1" }] := by
  have parsed : parseCookie (toCookieString [{ name := ascii "__csrf-token", value := ascii "1" }]) =
      some (.ok [{ name := ascii "token", value := ascii "1" }]) := by
    decide +kernel
  refine ⟨by constructor <;> decide +kernel, parsed, ?_⟩
  rintro ⟨found, whole, same⟩
  rw [parsed, Option.some.injEq, Except.ok.injEq] at whole
  rw [← whole] at same
  exact absurd (List.perm_singleton.mp same) (by decide +kernel)

end Written

end Kurlyk.Utils
