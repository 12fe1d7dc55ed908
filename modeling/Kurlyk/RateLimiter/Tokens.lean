/-
This file follows the in-flight tokens of a sequential limit. A coordinate works
as a lock that a request holds from its first allowed call to its release, and
may take again while it holds it: there is at most one token on a coordinate, a
call with another token is refused, and a collection never erases a token.

Everything that happens to the limits themselves (creation, removal, the end of
their last handle) leaves every key alone.
-/

import Kurlyk.RateLimiter.Handles

namespace Kurlyk.RateLimiter

variable {limiter next : HttpRateLimiter} {call : RequestCall} {now : TimePoint} {id : LimitId}
  {key : String} {token : Token} {params : LimitParams} {mark : Bool}

/-- The tokens in flight on a coordinate. -/
def tokensAt (limiter : HttpRateLimiter) (id : LimitId) (key : String) : Finset Token :=
  ((keyAt limiter id key).getD {}).inFlightTokens

theorem tokensAt_of_keyAt {state : KeyState} (found : keyAt limiter id key = some state) :
    tokensAt limiter id key = state.inFlightTokens := by
  rw [tokensAt, found, Option.getD_some]

theorem tokensAt_of_headerless (absent : headerAt limiter id = none) (key : String) :
    tokensAt limiter id key = ∅ := by
  rw [tokensAt, Supports.keyAt_of_headerAt_none absent]
  rfl

/-! ### What the calls of a request do to the tokens -/

/-- A collection spares every state that has a token. -/
theorem collectKey_tokens (params : LimitParams) (now : TimePoint) (state : KeyState) :
    ((collectKey params now state).getD {}).inFlightTokens = state.inFlightTokens := by
  unfold collectKey
  split
  · rename_i stale
    rw [isStale, Bool.and_eq_true, decide_eq_true_eq] at stale
    rw [stale.1]
    rfl
  · rfl

/-- An allowed call enters its token at every sequential coordinate it names. -/
theorem tokensAt_allow (held : call.Held limiter) (allowed : (call.allow limiter now).1 = true)
    (header : headerAt limiter id = some (params, mark)) (key : String) :
    tokensAt (call.allow limiter now).2 id key =
      if call.Names id key ∧ params.sequential = true ∧ call.token ≠ 0 then
        insert call.token (tokensAt limiter id key)
      else tokensAt limiter id key := by
  obtain ⟨collects, spec⟩ := keyAt_allow held allowed
  have collected : ∀ found : Option KeyState,
      ((found.bind (if collects then collectKey params now else some)).getD {}).inFlightTokens =
        (found.getD {}).inFlightTokens := by
    intro found
    cases found with
    | none => rfl
    | some state =>
      cases collects with
      | false => rfl
      | true => exact collectKey_tokens params now state
  rw [tokensAt, spec id key params mark header, settled, collected]
  by_cases named : call.Names id key
  · rw [if_pos named, Option.getD_some, commitKey_tokens]
    simp only [named, true_and, tokensAt]
  · rw [if_neg named, if_neg fun all => named all.1, tokensAt]

/-- A call never takes a token away. -/
theorem tokensAt_subset_allow (held : call.Held limiter) (now : TimePoint) (id : LimitId)
    (key : String) : tokensAt limiter id key ⊆ tokensAt (call.allow limiter now).2 id key := by
  cases answer : (call.allow limiter now).1 with
  | false => rw [allow_snd_of_refused answer]
  | true =>
    cases header : headerAt limiter id with
    | none =>
      rw [tokensAt_of_headerless header]
      exact Finset.empty_subset _
    | some found =>
      rw [tokensAt_allow held answer header]
      split
      · exact Finset.subset_insert _ _
      · exact Finset.Subset.refl _

/-- A token appears on a coordinate only by an allowed call that names it. -/
theorem mem_tokensAt_allow (held : call.Held limiter)
    (member : token ∈ tokensAt (call.allow limiter now).2 id key) :
    token ∈ tokensAt limiter id key ∨ (token = call.token ∧ token ≠ 0 ∧ call.Names id key ∧
      (call.allow limiter now).1 = true) := by
  cases answer : (call.allow limiter now).1 with
  | false =>
    rw [allow_snd_of_refused answer] at member
    exact Or.inl member
  | true =>
    cases header : headerAt limiter id with
    | none =>
      have absent : headerAt (call.allow limiter now).2 id = none := by
        cases after : headerAt (call.allow limiter now).2 id with
        | none => rfl
        | some found =>
          rw [headerAt_allow held id found after] at header
          exact absurd header (by simp)
      rw [tokensAt_of_headerless absent] at member
      exact absurd member (Finset.notMem_empty _)
    | some found =>
      rw [tokensAt_allow held answer header] at member
      split at member
      · rename_i entered
        rcases Finset.mem_insert.mp member with rfl | old
        · exact Or.inr ⟨rfl, entered.2.2, entered.1, rfl⟩
        · exact Or.inl old
      · exact Or.inl member

theorem dropToken_tokens (found : Option KeyState) (token : Token) :
    ((found.bind (dropToken · token)).getD {}).inFlightTokens =
      (found.getD {}).inFlightTokens.erase token := by
  cases found with
  | none => rfl
  | some state =>
    rw [Option.bind_some, dropToken]
    dsimp only
    split
    · rename_i emptied
      exact emptied.1.symm
    · rfl

/-- A released call drops its token at every sequential coordinate it names, and no other. -/
theorem tokensAt_release (held : call.Held limiter)
    (header : headerAt limiter id = some (params, mark)) (key : String) :
    tokensAt (call.release limiter) id key =
      if call.Names id key ∧ params.sequential = true ∧ call.token ≠ 0 then
        (tokensAt limiter id key).erase call.token
      else tokensAt limiter id key := by
  rw [tokensAt, keyAt_release held header]
  split
  · exact dropToken_tokens _ _
  · rfl

theorem tokensAt_release_headerless (absent : headerAt limiter id = none) (key : String) :
    tokensAt (call.release limiter) id key = ∅ :=
  tokensAt_of_headerless (by rw [headerAt_release]; exact absent) key

theorem tokensAt_release_subset (held : call.Held limiter) (id : LimitId) (key : String) :
    tokensAt (call.release limiter) id key ⊆ tokensAt limiter id key := by
  cases header : headerAt limiter id with
  | none =>
    rw [tokensAt_release_headerless header]
    exact Finset.empty_subset _
  | some found =>
    rw [tokensAt_release held header]
    split
    · exact Finset.erase_subset _ _
    · exact Finset.Subset.refl _

/-- Another token stays where it is. -/
theorem mem_tokensAt_release_of_ne (held : call.Held limiter) (other : token ≠ call.token)
    (member : token ∈ tokensAt limiter id key) : token ∈ tokensAt (call.release limiter) id key := by
  cases header : headerAt limiter id with
  | none =>
    rw [tokensAt_of_headerless header] at member
    exact absurd member (Finset.notMem_empty _)
  | some found =>
    rw [tokensAt_release held header]
    split
    · exact Finset.mem_erase.mpr ⟨other, member⟩
    · exact member

/-! ### The lock of a coordinate -/

/-- A coordinate has at most one token, and only if its limit is sequential. -/
structure Locked (limiter : HttpRateLimiter) : Prop where
  single : ∀ id key first second, first ∈ tokensAt limiter id key →
    second ∈ tokensAt limiter id key → first = second
  sequential : ∀ id key token params mark, token ∈ tokensAt limiter id key →
    headerAt limiter id = some (params, mark) → params.sequential = true

/-- The only call that passes a coordinate with tokens has its own token there. -/
theorem free_of_allowed (held : call.Held limiter) (allowed : (call.allow limiter now).1 = true)
    (named : call.Names id key) (registered : Registered limiter id params)
    (sequential : params.sequential = true) (nonzero : call.token ≠ 0) :
    tokensAt limiter id key = ∅ ∨ call.token ∈ tokensAt limiter id key := by
  have passes := (allow_fst_iff held now).mp allowed id key params named registered
  unfold canPassKey at passes
  cases found : keyAt limiter id key with
  | none =>
    rw [tokensAt, found]
    exact Or.inl rfl
  | some state =>
    rw [tokensAt_of_keyAt found]
    rw [found] at passes
    dsimp only at passes
    split at passes
    · exact absurd passes (by simp)
    · rename_i free
      by_contra taken
      rw [not_or] at taken
      exact free (by simp [heldByOther, sequential, nonzero, taken])

/-- While a token is on a coordinate, every call with another token is refused there. -/
theorem Locked.refuses (locked : Locked limiter) (held : call.Held limiter)
    (holds : token ∈ tokensAt limiter id key) (named : call.Names id key)
    (other : call.token ≠ token) (nonzero : call.token ≠ 0) (now : TimePoint) :
    (call.allow limiter now).1 = false := by
  obtain ⟨params, registered⟩ := held id key named
  have sequential := locked.sequential id key token params false holds registered.2
  cases answer : (call.allow limiter now).1 with
  | false => rfl
  | true =>
    rcases free_of_allowed held answer named registered sequential nonzero with empty | own
    · rw [empty] at holds
      exact absurd holds (Finset.notMem_empty _)
    · exact absurd (locked.single id key _ _ own holds) other

/-- A refused call has a coordinate that another token holds or whose window is full. -/
theorem exists_refusing (held : call.Held limiter) (refused : (call.allow limiter now).1 = false) :
    ∃ id key params state, call.Names id key ∧ Registered limiter id params ∧
      keyAt limiter id key = some state ∧
      (heldByOther params state call.token = true ∨ checkKey params state now = false) := by
  by_contra passes
  have allowed : (call.allow limiter now).1 = true := by
    refine (allow_fst_iff held now).mpr fun id key params named registered => ?_
    unfold canPassKey
    cases found : keyAt limiter id key with
    | none => rfl
    | some state =>
      have clear : ¬ (heldByOther params state call.token = true ∨
          checkKey params state now = false) := fun either =>
        passes ⟨id, key, params, state, named, registered, found, either⟩
      rw [not_or, Bool.not_eq_true, Bool.not_eq_false] at clear
      dsimp only
      rw [clear.1]
      exact clear.2
  rw [refused] at allowed
  exact absurd allowed (by simp)

/-- A call that has its own token on all its sequential coordinates is refused by a full window
only. -/
theorem window_of_refused (held : call.Held limiter)
    (own : ∀ id key params, call.Names id key → Registered limiter id params →
      params.sequential = true → call.token ∈ tokensAt limiter id key)
    (refused : (call.allow limiter now).1 = false) :
    ∃ id key params state, call.Names id key ∧ Registered limiter id params ∧
      keyAt limiter id key = some state ∧ checkKey params state now = false := by
  obtain ⟨id, key, params, state, named, registered, found, taken | full⟩ :=
    exists_refusing held refused
  · simp only [heldByOther, Bool.and_eq_true, decide_eq_true_eq] at taken
    have member := own id key params named registered taken.1.1.1
    rw [tokensAt_of_keyAt found] at member
    exact absurd member taken.2
  · exact ⟨id, key, params, state, named, registered, found, full⟩

theorem Locked.allow (locked : Locked limiter) (held : call.Held limiter) (now : TimePoint) :
    Locked (call.allow limiter now).2 where
  single id key first second firstMember secondMember := by
    -- A token that the call enters finds the coordinate empty, or its own already.
    have entered : ∀ token, token ∈ tokensAt limiter id key → call.token ≠ 0 →
        call.Names id key → (call.allow limiter now).1 = true → token = call.token := by
      intro token old nonzero named allowed
      by_contra other
      rw [locked.refuses held old named (Ne.symm other) nonzero] at allowed
      exact absurd allowed (by simp)
    rcases mem_tokensAt_allow held firstMember with old | ⟨rfl, nonzero, named, allowed⟩
    · rcases mem_tokensAt_allow held secondMember with older | ⟨rfl, nonzero, named, allowed⟩
      · exact locked.single id key first second old older
      · exact entered first old nonzero named allowed
    · rcases mem_tokensAt_allow held secondMember with older | ⟨rfl, _⟩
      · exact (entered second older nonzero named allowed).symm
      · rfl
  sequential id key token params mark member header := by
    have before := headerAt_allow held id _ header
    by_cases old : token ∈ tokensAt limiter id key
    · exact locked.sequential id key token params mark old before
    · rcases mem_tokensAt_allow held member with found | ⟨_, _, _, allowed⟩
      · exact absurd found old
      · rw [tokensAt_allow held allowed before] at member
        split at member
        · rename_i entered
          exact entered.2.1
        · exact absurd member old

theorem Locked.release (locked : Locked limiter) (held : call.Held limiter) :
    Locked (call.release limiter) where
  single id key first second firstMember secondMember :=
    locked.single id key first second (tokensAt_release_subset held id key firstMember)
      (tokensAt_release_subset held id key secondMember)
  sequential id key token params mark member header := by
    rw [headerAt_release] at header
    exact locked.sequential id key token params mark (tokensAt_release_subset held id key member)
      header

/-! ### The life of limits -/

/-- Limits are created, marked removed or erased, and every key stays as it is. -/
structure Retires (limiter next : HttpRateLimiter) : Prop where
  keys : ∀ id key, keyAt next id key = keyAt limiter id key
  headers : ∀ id params mark, headerAt next id = some (params, mark) →
    (∃ old, headerAt limiter id = some (params, old) ∧ (mark = false → old = false)) ∨
      limiter.nextId ≤ id
  counter : limiter.nextId ≤ next.nextId

namespace Retires

theorem refl (limiter : HttpRateLimiter) : Retires limiter limiter :=
  ⟨fun _ _ => rfl, fun _ _ mark header => Or.inl ⟨mark, header, fun unmarked => unmarked⟩,
    Nat.le_refl _⟩

theorem trans {middle : HttpRateLimiter} (first : Retires limiter middle)
    (second : Retires middle next) : Retires limiter next where
  keys id key := (second.keys id key).trans (first.keys id key)
  headers id params mark header := by
    rcases second.headers id params mark header with ⟨later, found, unmarked⟩ | fresh
    · rcases first.headers id params later found with ⟨old, before, stays⟩ | fresh
      · exact Or.inl ⟨old, before, fun none => stays (unmarked none)⟩
      · exact Or.inr fresh
    · exact Or.inr (first.counter.trans fresh)
  counter := first.counter.trans second.counter

theorem tokensAt_eq (retires : Retires limiter next) (id : LimitId) (key : String) :
    tokensAt next id key = tokensAt limiter id key := by
  rw [tokensAt, tokensAt, retires.keys]

theorem locked {held : LimitId → Prop} (retires : Retires limiter next)
    (supports : Supports limiter held) (locked : Locked limiter) : Locked next where
  single id key := by
    rw [retires.tokensAt_eq]
    exact locked.single id key
  sequential id key token params mark member header := by
    rw [retires.tokensAt_eq] at member
    rcases retires.headers id params mark header with ⟨old, before, _⟩ | fresh
    · exact locked.sequential id key token params old member before
    · cases before : headerAt limiter id with
      | none =>
        rw [tokensAt_of_headerless before] at member
        exact absurd member (Finset.notMem_empty _)
      | some found => exact absurd (supports.bounded id found before) (Nat.not_lt_of_le fresh)

theorem create {held : LimitId → Prop} (supports : Supports limiter held)
    (requestsPerPeriod periodMs : ℤ) (sequential : Bool) :
    Retires limiter (createLimitHandle limiter requestsPerPeriod periodMs sequential).2 where
  keys := supports.keyAt_createLimitHandle requestsPerPeriod periodMs sequential
  headers id params mark header := by
    rw [headerAt_createLimitHandle] at header
    split at header
    · rename_i same
      exact Or.inr (Nat.le_of_eq same.symm)
    · exact Or.inl ⟨mark, header, fun unmarked => unmarked⟩
  counter := Nat.le_succ _

theorem removeLimit (limiter : HttpRateLimiter) (id : LimitId) :
    Retires limiter (removeLimit limiter id).2 where
  keys other key := by rw [keyAt, keyAt, removeLimit_limits]
  headers other params mark header := by
    rw [headerAt, removeLimit_limits] at header
    exact Or.inl ⟨mark, header, fun unmarked => unmarked⟩
  counter := Nat.le_of_eq (removeLimit_nextId limiter id).symm

theorem drop (limiter : HttpRateLimiter) (remaining : List LimitId) (id : LimitId) :
    Retires limiter (dropHandle limiter remaining id) where
  keys := keyAt_dropHandle limiter remaining id
  headers other params mark header :=
    Or.inl (headerAt_dropHandle limiter remaining id other params mark header)
  counter := Nat.le_of_eq (dropHandle_nextId limiter remaining id).symm

end Retires

theorem retires_dropAll (remaining ids : List LimitId) (limiter : HttpRateLimiter) :
    Retires limiter (dropAll remaining ids limiter) := by
  induction ids generalizing limiter with
  | nil => exact .refl limiter
  | cons id rest inductionHypothesis =>
    exact (Retires.drop limiter remaining id).trans (inductionHypothesis _)

theorem Supports.dropAll {held : LimitId → Prop} {remaining : List LimitId}
    (supports : Supports limiter held) (ids : List LimitId)
    (still : ∀ other ∈ remaining, held other) :
    Supports (dropAll remaining ids limiter) (· ∈ remaining) := by
  induction ids generalizing limiter held with
  | nil => exact supports.mono fun other member => Or.inl (still other member)
  | cons id rest inductionHypothesis =>
    exact inductionHypothesis (supports.drop id still) fun _ member => member

end Kurlyk.RateLimiter
