/-
This file is about the first window of a key. A key without state is given one
whose window opened at the epoch of the clock. When the first request comes a
period or more after the epoch, it opens a window at its own instant and the
period that follows admits no more than the count of the limit. When it comes
sooner, the window that it is charged to ends too early: a period counted from
the request can see the rest of that window and a full window after it.

What a step does to the window of one key is stated once. The bound follows from
it by the rule for an interval that opens with a window, and so does the run that
exceeds the bound.
-/

import Kurlyk.RateLimiter.Throttle

namespace Kurlyk.RateLimiter

/-! ### What a step does to one window -/

section Steps

variable {world next : LimiterWorld} {id : LimitId} {params : LimitParams}

/-- A limit that is registered after a step was registered before it, unless the step created
it. -/
theorem registered_before (accounts : Accounts world)
    (supports : Supports world.limiter (· ∈ world.copies)) (step : LimiterStep world next)
    (created : .created id params ∈ world.history)
    (registered : Registered next.limiter id params) : Registered world.limiter id params := by
  refine ⟨registered.1, ?_⟩
  have found := registered.2
  cases step with
  | create other =>
    change headerAt (createLimitHandle world.limiter other.requestsPerPeriod other.periodMs
      other.sequential).2 id = _ at found
    rwa [headerAt_createLimitHandle, if_neg (accounts.createdBelow id params created).ne] at found
  | copy other available => exact found
  | drop other held =>
    obtain ⟨old, before, kept⟩ := headerAt_dropHandle _ _ _ id params false found
    rw [before, kept rfl]
  | remove other =>
    simpa only [LimiterWorld.removeLimit, headerAt, removeLimit_limits] using found
  | allow call now holds later =>
    exact headerAt_allow (supports.call_held holds) id _ found
  | release call holds =>
    rw [← headerAt_release world.limiter call]
    exact found
  | idle => exact found

/-- Only a request on a registered limit is allowed. -/
theorem admissions_of_unregistered (accounts : Accounts world)
    (supports : Supports world.limiter (· ∈ world.copies)) (step : LimiterStep world next)
    (created : .created id params ∈ world.history)
    (unregistered : ¬ Registered next.limiter id params) (key : String) :
    admissions next.history id key = admissions world.history id key := by
  cases step with
  | create other => exact (admissions_append _ _ _ _).trans (List.append_nil _)
  | copy other available => rfl
  | drop other held => rfl
  | remove other => rfl
  | allow call now holds later =>
    have callHeld := supports.call_held holds
    refine (accounts.decide_bookkeeping callHeld now).2.2.2 id key fun named => unregistered ?_
    obtain ⟨found, registered⟩ := callHeld id key named
    have same : found = params :=
      accounts.createdOnce id found params (accounts.present id found false registered.2) created
    exact same ▸ registered.allow callHeld now
  | release call holds => exact (admissions_append _ _ _ _).trans (List.append_nil _)
  | idle => rfl

/-- What a step makes of the window of a coordinate: it takes the admission the step records, if
any, and may be forgotten once it has run out. -/
structure WindowStep (params : LimitParams) (id : LimitId) (key : String)
    (world next : LimiterWorld) : Prop where
  later : world.clock ≤ next.clock
  moves : ∃ taken : Option Current,
    ((admissions next.history id key = admissions world.history id key ∧
        taken = remembered (keyAt world.limiter id key)) ∨
      (admissions next.history id key = admissions world.history id key ++ [next.clock] ∧
        ∃ current, taken = some current ∧ Current.Takes params.period
          params.requestsPerPeriod.toNat next.clock (remembered (keyAt world.limiter id key))
          current)) ∧
    (remembered (keyAt next.limiter id key) = taken ∨
      remembered (keyAt next.limiter id key) = none ∧
        ∃ current, taken = some current ∧ current.start + params.period ≤ next.clock)

theorem WindowStep.quiet {key : String} (later : world.clock ≤ next.clock)
    (sameAdmissions : admissions next.history id key = admissions world.history id key)
    (sameWindow : remembered (keyAt next.limiter id key) =
      remembered (keyAt world.limiter id key)) : WindowStep params id key world next :=
  ⟨later, _, Or.inl ⟨sameAdmissions, rfl⟩, Or.inl sameWindow⟩

/-- A decision at which the coordinate is committed, or left alone, and perhaps collected. -/
theorem WindowStep.allow (accounts : Accounts world)
    (supports : Supports world.limiter (· ∈ world.copies)) {call : RequestCall} {now : TimePoint}
    (holds : world.Holds call) (later : world.clock ≤ now)
    (before : Registered world.limiter id params) (positive : 0 < params.requestsPerPeriod)
    (key : String) : WindowStep params id key world (world.allowRequest call now) := by
  have callHeld := supports.call_held holds
  have sound := accounts.sound id params key before
  cases answer : (call.allow world.limiter now).1 with
  | false =>
    refine .quiet later ?_ ?_
    · refine (admissions_append _ _ _ _).trans ?_
      rw [answer]
      exact List.append_nil _
    · rw [LimiterWorld.allowRequest, allow_snd_of_refused answer]
  | true =>
    obtain ⟨collects, settles⟩ := keyAt_allow callHeld answer
    have after : keyAt (world.allowRequest call now).limiter id key =
        settled call world.limiter now collects params id key := settles id key params false before.2
    have recorded : admissions (world.allowRequest call now).history id key =
        admissions world.history id key ++ admissions [.decided call now true] id key := by
      rw [← admissions_append, LimiterWorld.allowRequest, answer]
    have forgets : ∀ committed : Option KeyState,
        KeySound params (world.history ++ [.decided call now true]) id key now committed →
        remembered (committed.bind (if collects then collectKey params now else some)) =
            remembered committed ∨
          remembered (committed.bind (if collects then collectKey params now else some)) = none ∧
            ∃ current, remembered committed = some current ∧
              current.start + params.period ≤ now := by
      intro committed committedSound
      cases collects with
      | false => exact Or.inl (by simp)
      | true =>
        rcases committedSound.collected positive.ne' with kept | ⟨gone, found, rfl, expired⟩
        · exact Or.inl (congrArg remembered kept)
        · exact Or.inr ⟨congrArg remembered gone, _, rfl, expired⟩
    refine ⟨later, remembered (if call.Names id key then
      some (commitKey params (keyAt world.limiter id key) call.token now)
      else keyAt world.limiter id key), ?_, ?_⟩
    · by_cases named : call.Names id key
      · have passes := (allow_fst_iff callHeld now).mp answer id key params named before
        rw [if_pos named, recorded]
        exact Or.inr ⟨by simp [admissions, named, LimiterWorld.allowRequest], _, rfl,
          sound.takes_commit later passes positive⟩
      · rw [if_neg named, recorded]
        exact Or.inl ⟨by simp [admissions, named], rfl⟩
    · rw [after, settled]
      refine forgets _ ?_
      split
      · rename_i named
        exact sound.commit later named ((allow_fst_iff callHeld now).mp answer id key params named
          before)
      · rename_i unnamed
        exact sound.unrelated later _ (by simp [admissions, unnamed]) (by simp)

theorem windowStep_of_step (accounts : Accounts world)
    (supports : Supports world.limiter (· ∈ world.copies)) (step : LimiterStep world next)
    (before : Registered world.limiter id params) (positive : 0 < params.requestsPerPeriod)
    (key : String) : WindowStep params id key world next := by
  cases step with
  | create other =>
    refine .quiet le_rfl ((admissions_append _ _ _ _).trans (List.append_nil _)) ?_
    exact congrArg remembered (supports.keyAt_createLimitHandle _ _ _ id key)
  | copy other available => exact .quiet le_rfl rfl rfl
  | drop other held =>
    exact .quiet le_rfl rfl (congrArg remembered (keyAt_dropHandle _ _ _ id key))
  | remove other =>
    refine .quiet le_rfl rfl ?_
    simp only [LimiterWorld.removeLimit, keyAt, removeLimit_limits]
  | allow call now holds later => exact .allow accounts supports holds later before positive key
  | release call holds =>
    refine .quiet le_rfl ((admissions_append _ _ _ _).trans (List.append_nil _)) ?_
    change remembered (keyAt (call.release world.limiter) id key) = _
    rw [keyAt_release (supports.call_held holds) before.2]
    split
    · exact (accounts.sound id params key before).remembered_drop positive.ne' call.token
    · rfl
  | idle => exact .quiet le_rfl rfl rfl

end Steps

/-! ### A period that opens with a window -/

/-- The admissions on a coordinate in the period from `opening`, which opened with a window of the
coordinate. -/
structure Bounded (params : LimitParams) (id : LimitId) (key : String) (opening : TimePoint)
    (world : LimiterWorld) : Prop where
  created : .created id params ∈ world.history
  within : Window.countIn params.period opening (admissions world.history id key) ≤
    params.requestsPerPeriod.toNat
  aligned : Registered world.limiter id params →
    Current.Aligned params.period params.requestsPerPeriod.toNat opening
      (Window.countIn params.period opening (admissions world.history id key)) world.clock
      (remembered (keyAt world.limiter id key))

theorem countIn_concat (period opening now : ℕ) (instants : List ℕ) :
    Window.countIn period opening (instants ++ [now]) = Window.countIn period opening instants +
      if opening ≤ now ∧ now < opening + period then 1 else 0 := by
  rw [Window.countIn_append, Window.countIn, Window.countIn, List.countP_singleton]
  simp only [decide_eq_true_eq]

/-- The window of the coordinate stays aligned with the interval. -/
theorem WindowStep.aligned {params : LimitParams} {id : LimitId} {key : String}
    {world next : LimiterWorld} {opening : TimePoint}
    (step : WindowStep params id key world next) (lasting : 0 < params.period)
    (aligned : Current.Aligned params.period params.requestsPerPeriod.toNat opening
      (Window.countIn params.period opening (admissions world.history id key)) world.clock
      (remembered (keyAt world.limiter id key))) :
    Current.Aligned params.period params.requestsPerPeriod.toNat opening
      (Window.countIn params.period opening (admissions next.history id key)) next.clock
      (remembered (keyAt next.limiter id key)) := by
  obtain ⟨later, taken, takes, forgets⟩ := step
  have takenAligned : Current.Aligned params.period params.requestsPerPeriod.toNat opening
      (Window.countIn params.period opening (admissions next.history id key)) next.clock
      taken := by
    rcases takes with ⟨sameAdmissions, rfl⟩ | ⟨recorded, current, rfl, takes⟩
    · rw [sameAdmissions]
      exact aligned.advance later
    · rw [recorded, countIn_concat]
      exact aligned.take later takes lasting
  rcases forgets with kept | ⟨gone, current, rfl, expired⟩
  · rw [kept]
    exact takenAligned
  · rw [gone]
    exact takenAligned.forget expired

theorem LimiterStep.history_grows {world next : LimiterWorld} (step : LimiterStep world next) :
    world.history ⊆ next.history := by
  cases step with
  | create params => exact List.subset_append_left _ _
  | copy id available => exact List.Subset.refl _
  | drop id held => exact List.Subset.refl _
  | remove id => exact List.Subset.refl _
  | allow call now holds later => exact List.subset_append_left _ _
  | release call holds => exact List.subset_append_left _ _
  | idle => exact List.Subset.refl _

theorem Bounded.runs {params : LimitParams} {id : LimitId} {key : String} {opening : TimePoint}
    {world finish : LimiterWorld} {actions : List LimiterAction}
    (bounded : Bounded params id key opening world) (reachable : limiterSystem.Reachable world)
    (runs : limiterSystem.Runs world actions finish) (positive : 0 < params.requestsPerPeriod)
    (lasting : 0 < params.period) : Bounded params id key opening finish := by
  refine runs.induction (Bounded params id key opening) reachable bounded ?_
  intro before action after reached _ held stepped
  have step := limiterStep_of_step stepped
  have accounts := limiter_accounts reached
  have supports := limiter_supports reached
  have created := step.history_grows held.created
  by_cases registered : Registered after.limiter id params
  · have earlier := registered_before accounts supports step held.created registered
    have aligned := (windowStep_of_step accounts supports step earlier positive key).aligned lasting
      (held.aligned earlier)
    exact ⟨created, aligned.inside_le, fun _ => aligned⟩
  · refine ⟨created, ?_, fun again => absurd again registered⟩
    rw [admissions_of_unregistered accounts supports step held.created registered key]
    exact held.within

/-- Nothing was admitted on a key without state since a period before the clock. -/
theorem countIn_unused {params : LimitParams} {history : List LimiterEvent} {id : LimitId}
    {key : String} {clock now : TimePoint} (sound : KeySound params history id key clock none)
    (positive : 0 < params.requestsPerPeriod) (lasting : 0 < params.periodMs)
    (later : clock ≤ now) : Window.countIn params.period now (admissions history id key) = 0 := by
  obtain ⟨windows, sum, _, fits, expired⟩ := sound.ledger positive lasting
  rw [sum, Window.countIn, Window.instants, List.countP_eq_zero]
  intro instant member inside
  obtain ⟨window, among, admitted⟩ := List.mem_flatMap.mp member
  have bounds := (fits window among).2 instant admitted
  have passed : window.start + params.period ≤ clock := expired window among
  have within := (of_decide_eq_true inside).1
  exact absurd (lt_of_lt_of_le bounds.2 (le_trans passed later)) (Nat.not_lt.mpr within)

/-! ### The first request on a key -/

theorem admissions_allowed {world : LimiterWorld} {call : RequestCall} {now : TimePoint}
    {id : LimitId} {key : String} (named : call.Names id key)
    (allowed : (call.allow world.limiter now).1 = true) :
    admissions (world.allowRequest call now).history id key =
      admissions world.history id key ++ [now] := by
  refine (admissions_append _ _ _ _).trans ?_
  rw [allowed]
  simp [admissions, named]

/-- An allowed request on the coordinate is taken by its window. -/
theorem WindowStep.takes {params : LimitParams} {id : LimitId} {key : String}
    {world : LimiterWorld} {call : RequestCall} {now : TimePoint}
    (step : WindowStep params id key world (world.allowRequest call now))
    (lasting : 0 < params.period) (named : call.Names id key)
    (allowed : (call.allow world.limiter now).1 = true) :
    ∃ current, Current.Takes params.period params.requestsPerPeriod.toNat now
        (remembered (keyAt world.limiter id key)) current ∧
      remembered (keyAt (world.allowRequest call now).limiter id key) = some current := by
  obtain ⟨_, taken, ⟨sameAdmissions, _⟩ | ⟨_, current, rfl, takes⟩, forgets⟩ := step
  · rw [admissions_allowed named allowed] at sameAdmissions
    exact absurd (congrArg List.length sameAdmissions) (by simp)
  · refine ⟨current, takes, ?_⟩
    rcases forgets with kept | ⟨_, other, same, expired⟩
    · exact kept
    · obtain rfl := Option.some.inj same
      exact absurd expired (Nat.not_le.mpr (takes.unexpired lasting))

section First

variable {world next : LimiterWorld} {params : LimitParams} {id : LimitId} {key : String}
  {call : RequestCall} {now : TimePoint}

/-- The window that a first request is charged to: its own, or one that opened at the epoch. -/
theorem first_window (accounts : Accounts world)
    (supports : Supports world.limiter (· ∈ world.copies)) (holds : world.Holds call)
    (later : world.clock ≤ now) (registered : Registered world.limiter id params)
    (positive : 0 < params.requestsPerPeriod) (lasting : 0 < params.period)
    (fresh : keyAt world.limiter id key = none) (named : call.Names id key)
    (allowed : (call.allow world.limiter now).1 = true) :
    remembered (keyAt (world.allowRequest call now).limiter id key) =
      some ⟨if params.period ≤ now then now else 0, 1⟩ := by
  have step := WindowStep.allow accounts supports holds later registered positive key
  obtain ⟨current, takes, after⟩ := step.takes lasting named allowed
  rw [fresh] at takes
  rw [after]
  cases takes with
  | fresh past => rw [if_pos past]
  | early sooner => rw [if_neg (Nat.not_le.mpr sooner)]

/-- A first request that opens a window opens an interval aligned with it. -/
theorem Bounded.first (accounts : Accounts world)
    (supports : Supports world.limiter (· ∈ world.copies)) (holds : world.Holds call)
    (later : world.clock ≤ now) (registered : Registered world.limiter id params)
    (positive : 0 < params.requestsPerPeriod) (lasting : 0 < params.periodMs)
    (fresh : keyAt world.limiter id key = none) (named : call.Names id key)
    (allowed : (call.allow world.limiter now).1 = true)
    (regular : params.period ≤ now ∨ now = 0) :
    Bounded params id key now (world.allowRequest call now) := by
  have period : 0 < params.period := Nat.mul_pos (by omega) (by decide)
  have sound := accounts.sound id params key registered
  rw [fresh] at sound
  have one : Window.countIn params.period now
      (admissions (world.allowRequest call now).history id key) = 1 := by
    rw [admissions_allowed named allowed, countIn_concat,
      countIn_unused sound positive lasting later, if_pos ⟨le_rfl, Nat.lt_add_of_pos_right period⟩]
  have opened : (if params.period ≤ now then now else 0) = now := by
    rcases regular with past | rfl
    · exact if_pos past
    · exact ite_self _
  refine ⟨List.mem_append_left _ (accounts.present id params false registered.2), ?_, fun _ => ?_⟩
  · rw [one]
    omega
  · rw [one, first_window accounts supports holds later registered positive period fresh named
      allowed, opened]
    exact ⟨le_rfl, Or.inl ⟨rfl, le_rfl, by dsimp only; omega⟩⟩

end First

/-! ### Filling a window -/

/-- A request that belongs to nobody and uses one coordinate. -/
def requestOn (id : LimitId) (key : String) : RequestCall :=
  ⟨some id, none, 0, key, ""⟩

theorem requestOn_names {id other : LimitId} {key otherKey : String} :
    (requestOn id key).Names other otherKey ↔ other = id ∧ otherKey = key := by
  simp [requestOn, RequestCall.Names, eq_comm]

/-- Room for one more request: the window has run out or is not full. -/
theorem requestOn_allowed {world : LimiterWorld} {params : LimitParams} {id : LimitId}
    {key : String} {now : ℕ} {current : Current}
    (held : (requestOn id key).Held world.limiter)
    (registered : Registered world.limiter id params)
    (window : remembered (keyAt world.limiter id key) = some current)
    (begun : current.start ≤ now)
    (room : current.start + params.period ≤ now ∨
      (current.count : ℤ) < params.requestsPerPeriod) :
    ((requestOn id key).allow world.limiter now).1 = true := by
  refine (allow_fst_iff held now).mpr fun other otherKey found named again => ?_
  obtain ⟨rfl, rfl⟩ := requestOn_names.mp named
  obtain rfl := registered.unique again
  obtain ⟨state, is, rfl⟩ := Option.map_eq_some_iff.mp window
  have free : heldByOther params state (requestOn other otherKey).token = false := by
    simp [heldByOther, requestOn]
  rw [is, canPassKey, free, if_neg Bool.false_ne_true]
  exact (checkKey_iff begun).mpr (Or.inr room)

/-- From a window that has run out, a full window can be admitted at one instant. -/
theorem exists_full_window {params : LimitParams} {id : LimitId} {key : String} {now : ℕ}
    (lasting : 0 < params.period) (positive : 0 < params.requestsPerPeriod) (remaining : ℕ) :
    ∀ {world : LimiterWorld} {current : Current}, limiterSystem.Reachable world →
      id ∈ world.copies → Registered world.limiter id params → world.clock ≤ now →
      remembered (keyAt world.limiter id key) = some current →
      (current.start + params.period ≤ now ∧ (remaining : ℤ) ≤ params.requestsPerPeriod ∨
        current.start = now ∧ (current.count + remaining : ℤ) ≤ params.requestsPerPeriod) →
      ∃ finish, limiterSystem.Runs world
          (List.replicate remaining (.allowRequest (requestOn id key) now)) finish ∧
        admissions finish.history id key =
          admissions world.history id key ++ List.replicate remaining now := by
  induction remaining with
  | zero =>
    intro world current _ _ _ _ _ _
    exact ⟨world, System.runs_nil.mpr rfl, (List.append_nil _).symm⟩
  | succ remaining inductionHypothesis =>
    intro world current reachable copied registered later window room
    have accounts := limiter_accounts reachable
    have supports := limiter_supports reachable
    have holds : world.Holds (requestOn id key) := by
      intro other member
      simp only [RequestCall.handles, requestOn, Option.toList_some, Option.toList_none,
        List.append_nil, List.mem_singleton] at member
      exact member ▸ copied
    have callHeld := supports.call_held holds
    have named : (requestOn id key).Names id key := requestOn_names.mpr ⟨rfl, rfl⟩
    have allowed : ((requestOn id key).allow world.limiter now).1 = true := by
      refine requestOn_allowed callHeld registered window ?_ ?_
      · omega
      · rcases room with ⟨expired, _⟩ | ⟨_, fits⟩
        · exact Or.inl expired
        · exact Or.inr (by omega)
    obtain ⟨taken, takes, after⟩ := (WindowStep.allow accounts supports holds later registered
      positive key).takes lasting named allowed
    have stepped : limiterSystem.step world (.allowRequest (requestOn id key) now) =
        some (world.allowRequest (requestOn id key) now) := if_pos ⟨holds, later⟩
    have opened : taken.start = now ∧
        (taken.count + remaining : ℤ) ≤ params.requestsPerPeriod := by
      rw [window] at takes
      cases takes with
      | reopened expired =>
        refine ⟨rfl, ?_⟩
        dsimp only
        omega
      | charged inside below =>
        rcases room with ⟨expired, _⟩ | ⟨same, fits⟩
        · exact absurd expired (Nat.not_le.mpr inside)
        · refine ⟨same, ?_⟩
          dsimp only
          omega
    obtain ⟨finish, runs, filled⟩ := inductionHypothesis (reachable.step stepped) copied
      (registered.allow callHeld now) le_rfl after (Or.inr opened)
    refine ⟨finish, System.runs_cons.mpr ⟨_, stepped, runs⟩, ?_⟩
    rw [filled, admissions_allowed named allowed, List.append_assoc, List.singleton_append,
      List.replicate_succ]

/-- A first request less than a period after the epoch may be followed by a full window that
opens before its own period is over. -/
theorem exists_overfull {world : LimiterWorld} {params : LimitParams} {id : LimitId} {key : String}
    {call : RequestCall} {now : TimePoint} (reachable : limiterSystem.Reachable world)
    (holds : world.Holds call) (later : world.clock ≤ now)
    (registered : Registered world.limiter id params) (positive : 0 < params.requestsPerPeriod)
    (fresh : keyAt world.limiter id key = none) (named : call.Names id key)
    (allowed : (call.allow world.limiter now).1 = true) (begun : 0 < now)
    (early : now < params.period) :
    ∃ actions finish, limiterSystem.Runs (world.allowRequest call now) actions finish ∧
      params.requestsPerPeriod <
        (Window.countIn params.period now (admissions finish.history id key) : ℤ) := by
  have lasting : 0 < params.period := Nat.zero_lt_of_lt early
  have supports := limiter_supports reachable
  have window := first_window (limiter_accounts reachable) supports holds later registered positive
    lasting fresh named allowed
  rw [if_neg (Nat.not_le.mpr early)] at window
  have stepped : limiterSystem.step world (.allowRequest call now) =
      some (world.allowRequest call now) := if_pos ⟨holds, later⟩
  obtain ⟨finish, runs, filled⟩ := exists_full_window lasting positive
    params.requestsPerPeriod.toNat (reachable.step stepped) (holds id named.mem_handles)
    (registered.allow (supports.call_held holds) now) early.le window
    (Or.inl ⟨le_of_eq (Nat.zero_add _), by omega⟩)
  refine ⟨_, finish, runs, ?_⟩
  have inside : Window.countIn params.period now
      (List.replicate params.requestsPerPeriod.toNat params.period) =
        params.requestsPerPeriod.toNat := by
    rw [Window.countIn, List.countP_replicate,
      if_pos (decide_eq_true ⟨early.le, Nat.lt_add_of_pos_left begun⟩)]
  rw [filled, admissions_allowed named allowed, Window.countIn_append, countIn_concat, inside,
    if_pos ⟨le_rfl, Nat.lt_add_of_pos_right lasting⟩]
  omega

/-- A key has no state when a request on it is allowed. The period that begins with the request
admits at most the count of the limit, whatever happens next, exactly when the request comes a
period or more after the epoch of the clock, or at the epoch itself. -/
theorem first_period_bounded_iff {world next : LimiterWorld} {params : LimitParams} {id : LimitId}
    {key : String} {call : RequestCall} {now : TimePoint}
    (reachable : limiterSystem.Reachable world) (registered : Registered world.limiter id params)
    (positive : 0 < params.requestsPerPeriod) (lasting : 0 < params.periodMs)
    (fresh : keyAt world.limiter id key = none) (named : call.Names id key)
    (stepped : limiterSystem.step world (.allowRequest call now) = some next)
    (allowed : (call.allow world.limiter now).1 = true) :
    (∀ actions finish, limiterSystem.Runs next actions finish →
      (Window.countIn params.period now (admissions finish.history id key) : ℤ) ≤
        params.requestsPerPeriod) ↔
      params.period ≤ now ∨ now = 0 := by
  have reached := reachable.step stepped
  change (if world.Holds call ∧ world.clock ≤ now then _ else _) = _ at stepped
  rw [Option.ite_none_right_eq_some, Option.some.injEq] at stepped
  obtain ⟨⟨holds, later⟩, rfl⟩ := stepped
  constructor
  · intro bounded
    by_contra irregular
    obtain ⟨early, begun⟩ := not_or.mp irregular
    obtain ⟨actions, finish, runs, more⟩ := exists_overfull reachable holds later registered
      positive fresh named allowed (Nat.pos_of_ne_zero begun) (Nat.lt_of_not_le early)
    exact absurd (bounded actions finish runs) (not_le.mpr more)
  · intro regular actions finish runs
    have bounded := Bounded.first (limiter_accounts reachable) (limiter_supports reachable) holds
      later registered positive lasting fresh named allowed regular
    have within := (bounded.runs reached runs positive
      (Nat.mul_pos (by omega) (by decide))).within
    omega

/-! ### One request in ten milliseconds -/

/-- A limiter with a single limit, of one request in ten milliseconds. -/
def oneInTen : LimiterWorld :=
  limiterSystem.init.createLimitHandle ⟨1, 10, false⟩

def onlyCall : RequestCall :=
  ⟨some 1, none, 1, "key", ""⟩

theorem oneInTen_reachable : limiterSystem.Reachable oneInTen :=
  System.reachable_init.step (show limiterSystem.step _ (.createLimitHandle 1 10 false) = _ from rfl)

/-- A first request nine milliseconds after the epoch is charged to a window that ends a
millisecond later, and a second request is allowed then. -/
theorem first_period_exceeded :
    ∃ world next finish, limiterSystem.Reachable world ∧
      Registered world.limiter 1 ⟨1, 10, false⟩ ∧ keyAt world.limiter 1 "key" = none ∧
      onlyCall.Names 1 "key" ∧ (onlyCall.allow world.limiter 9000000).1 = true ∧
      limiterSystem.step world (.allowRequest onlyCall 9000000) = some next ∧
      limiterSystem.Runs next [.allowRequest onlyCall 10000000] finish ∧
      ¬ (Window.countIn (LimitParams.period ⟨1, 10, false⟩) 9000000
        (admissions finish.history 1 "key") : ℤ) ≤ 1 := by
  exact ⟨oneInTen, oneInTen.allowRequest onlyCall 9000000,
    (oneInTen.allowRequest onlyCall 9000000).allowRequest onlyCall 10000000, oneInTen_reachable,
    ⟨by decide, rfl⟩, rfl, by decide, by decide, rfl, rfl, by decide⟩

/-- A first request fifty milliseconds after the epoch. -/
theorem first_period_bounded_iff_oneInTen :
    ∃ next, limiterSystem.step oneInTen (.allowRequest onlyCall 50000000) = some next ∧
      ∀ actions finish, limiterSystem.Runs next actions finish →
        (Window.countIn (LimitParams.period ⟨1, 10, false⟩) 50000000
          (admissions finish.history 1 "key") : ℤ) ≤ 1 := by
  have named : onlyCall.Names 1 "key" := by decide
  have stepped : limiterSystem.step oneInTen (.allowRequest onlyCall 50000000) =
    some (oneInTen.allowRequest onlyCall 50000000) := rfl
  have allowed : (onlyCall.allow oneInTen.limiter 50000000).1 = true := by decide
  refine ⟨_, stepped, ?_⟩
  exact (first_period_bounded_iff oneInTen_reachable ⟨by decide, rfl⟩ (by decide) (by decide) rfl
    named stepped allowed).mpr (Or.inl (by decide))

end Kurlyk.RateLimiter
