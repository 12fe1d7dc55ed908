/-
This file runs a rate limiter on its own. A world is a limiter, the copies of
handles that its users hold, and a clock; an action is one public call or one
copy or destruction of a handle. The history records the limits created and the
calls of requests with their answers. It is there for the statements only: no
action reads it.
-/

import Kurlyk.Lib.System
import Kurlyk.Lib.Log
import Kurlyk.RateLimiter.Handles

namespace Kurlyk.RateLimiter

/-- What the history of a limiter records. -/
inductive LimiterEvent where
  | created (id : LimitId) (params : LimitParams)
  | decided (call : RequestCall) (now : TimePoint) (allowed : Bool)
  | released (call : RequestCall)
deriving DecidableEq

/-- A limiter and its users. `copies` lists the copies of handles outside the limiter. -/
structure LimiterWorld where
  limiter : HttpRateLimiter := {}
  copies : List LimitId := []
  clock : TimePoint := 0
  history : List LimiterEvent := []

/-- The public calls of the limiter and the life of handle copies. `allow_request` reads the
clock. -/
inductive LimiterAction where
  | createLimitHandle (requestsPerPeriod periodMs : ℤ) (sequential : Bool)
  | copyHandle (id : LimitId)
  | dropHandle (id : LimitId)
  | removeLimit (id : LimitId)
  | getLimit (id : LimitId)
  | allowRequest (call : RequestCall) (now : TimePoint)
  | releaseRequest (call : RequestCall)

namespace LimiterWorld

/-- Who calls with a handle holds a copy of it. -/
def Holds (world : LimiterWorld) (call : RequestCall) : Prop :=
  ∀ id ∈ call.handles, id ∈ world.copies

instance (world : LimiterWorld) (call : RequestCall) : Decidable (world.Holds call) :=
  inferInstanceAs (Decidable (∀ id ∈ call.handles, id ∈ world.copies))

def createLimitHandle (world : LimiterWorld) (params : LimitParams) : LimiterWorld :=
  let created := RateLimiter.createLimitHandle world.limiter params.requestsPerPeriod
    params.periodMs params.sequential
  { world with
    limiter := created.2
    copies := created.1 :: world.copies
    history := world.history ++ [.created created.1 params] }

def dropHandle (world : LimiterWorld) (id : LimitId) : LimiterWorld :=
  { world with
    limiter := RateLimiter.dropHandle world.limiter (world.copies.erase id) id
    copies := world.copies.erase id }

/-- `remove_limit(id)`: the retired handle becomes a copy of the calling thread, which goes on
to destroy it. -/
def removeLimit (world : LimiterWorld) (id : LimitId) : LimiterWorld :=
  let removed := RateLimiter.removeLimit world.limiter id
  { world with
    limiter := removed.2
    copies := if removed.1 then id :: world.copies else world.copies }

def allowRequest (world : LimiterWorld) (call : RequestCall) (now : TimePoint) : LimiterWorld :=
  { world with
    limiter := (call.allow world.limiter now).2
    clock := now
    history := world.history ++ [.decided call now (call.allow world.limiter now).1] }

def releaseRequest (world : LimiterWorld) (call : RequestCall) : LimiterWorld :=
  { world with
    limiter := call.release world.limiter
    history := world.history ++ [.released call] }

/-- One action, if it can happen: a handle is only used by who holds it, and the clock never
goes back. -/
def step (world : LimiterWorld) : LimiterAction → Option LimiterWorld
  | .createLimitHandle requestsPerPeriod periodMs sequential =>
    some (world.createLimitHandle ⟨requestsPerPeriod, periodMs, sequential⟩)
  | .copyHandle id =>
    if id ∈ world.copies then some { world with copies := id :: world.copies } else none
  | .dropHandle id => if id ∈ world.copies then some (world.dropHandle id) else none
  | .removeLimit id => some (world.removeLimit id)
  | .getLimit id =>
    some { world with
      copies := (RateLimiter.getLimit world.limiter id).toList ++ world.copies }
  | .allowRequest call now =>
    if world.Holds call ∧ world.clock ≤ now then some (world.allowRequest call now) else none
  | .releaseRequest call => if world.Holds call then some (world.releaseRequest call) else none

end LimiterWorld

/-- A limiter on its own, from its construction on. -/
def limiterSystem : System LimiterWorld LimiterAction where
  init := {}
  step := LimiterWorld.step

/-! ### What one step can do -/

/-- The steps of a limiter, with what they need and what they leave. -/
inductive LimiterStep (world : LimiterWorld) : LimiterWorld → Prop where
  | create (params : LimitParams) : LimiterStep world (world.createLimitHandle params)
  | copy (id : LimitId) (available : id ∈ world.copies ∨ id ∈ world.limiter.ownedHandles) :
      LimiterStep world { world with copies := id :: world.copies }
  | drop (id : LimitId) (held : id ∈ world.copies) : LimiterStep world (world.dropHandle id)
  | remove (id : LimitId) : LimiterStep world (world.removeLimit id)
  | allow (call : RequestCall) (now : TimePoint) (holds : world.Holds call)
      (later : world.clock ≤ now) : LimiterStep world (world.allowRequest call now)
  | release (call : RequestCall) (holds : world.Holds call) :
      LimiterStep world (world.releaseRequest call)
  | idle : LimiterStep world world

theorem limiterStep_of_step {world next : LimiterWorld} {action : LimiterAction}
    (stepped : world.step action = some next) : LimiterStep world next := by
  cases action with
  | createLimitHandle requestsPerPeriod periodMs sequential =>
    obtain rfl := Option.some.inj stepped
    exact .create _
  | copyHandle id =>
    simp only [LimiterWorld.step, Option.ite_none_right_eq_some, Option.some.injEq] at stepped
    obtain ⟨held, rfl⟩ := stepped
    exact .copy id (Or.inl held)
  | dropHandle id =>
    simp only [LimiterWorld.step, Option.ite_none_right_eq_some, Option.some.injEq] at stepped
    obtain ⟨held, rfl⟩ := stepped
    exact .drop id held
  | removeLimit id =>
    obtain rfl := Option.some.inj stepped
    exact .remove id
  | getLimit id =>
    obtain rfl := Option.some.inj stepped
    unfold getLimit
    split
    · rename_i owned
      exact .copy id (Or.inr owned)
    · exact .idle
  | allowRequest call now =>
    simp only [LimiterWorld.step, Option.ite_none_right_eq_some, Option.some.injEq] at stepped
    obtain ⟨⟨holds, later⟩, rfl⟩ := stepped
    exact .allow call now holds later
  | releaseRequest call =>
    simp only [LimiterWorld.step, Option.ite_none_right_eq_some, Option.some.injEq] at stepped
    obtain ⟨holds, rfl⟩ := stepped
    exact .release call holds

/-- In every reachable world the limits of all live handles have their entries. -/
theorem limiter_supports {world : LimiterWorld} (reachable : limiterSystem.Reachable world) :
    Supports world.limiter (· ∈ world.copies) := by
  refine reachable.induction (fun world => Supports world.limiter (· ∈ world.copies))
    ⟨Nat.one_pos, ?_, ?_, ?_⟩ ?_
  · intro id header found
    simp [headerAt, limiterSystem] at found
  · intro id member
    simp [limiterSystem] at member
  · intro id member
    simp [limiterSystem] at member
  · intro before action after _ supports stepped
    cases limiterStep_of_step stepped with
    | create params =>
      exact (supports.create _ _ _).mono fun id member => Or.inl (List.mem_cons.mp member)
    | copy id available =>
      refine supports.mono fun other member => ?_
      rcases List.mem_cons.mp member with rfl | old
      · exact available
      · exact Or.inl old
    | drop id held =>
      exact supports.drop id fun other member => List.mem_of_mem_erase member
    | remove id =>
      refine (supports.removeLimit id).mono fun other member => Or.inl ?_
      dsimp only [LimiterWorld.removeLimit] at member
      split at member
      · rename_i found
        rcases List.mem_cons.mp member with same | old
        · exact Or.inr ⟨found, same⟩
        · exact Or.inl old
      · exact Or.inl member
    | allow call now holds later => exact supports.allow (supports.call_held holds) now
    | release call holds => exact supports.release call
    | idle => exact supports

end Kurlyk.RateLimiter
