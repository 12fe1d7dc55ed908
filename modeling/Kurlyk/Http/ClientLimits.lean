/-
This file models the two rate limits of an `HttpClient`. A client either creates
a limit, and then owns it, or is given one that somebody else created; when it
takes another limit, clears the slot or is destroyed, it withdraws the limit it
owns from the registry and lets the other kind alone.

Every call of the limiter is atomic, but a client makes several of them in one of
its functions, and other clients, requests and users of the manager come in
between. A client therefore has a point, the statement it is at, and a step of the
client is one statement with the calls of the limiter it makes.
-/

import Kurlyk.Lib.Position
import Kurlyk.RateLimiter.Lifetime

namespace Kurlyk.Http

open RateLimiter

/-! ### The client -/

/-- `RateLimitType`. -/
inductive RateLimitType where
  | general
  | specific
deriving DecidableEq

/-- What a function goes on with when `clear_rate_limit` has returned. -/
inductive Sequel where
  | nothing
  -- the handle that is assigned; `get_rate_limit` has made it when `temporary` holds
  | assign (id : LimitId) (temporary : Bool)
  | create (params : LimitParams)
  -- the destructor clears the general limit and then the specific one
  | clearSpecific
  | destroyed
deriving DecidableEq

/-- The statement a thread of the client is at, in `clear_rate_limit` and behind it. -/
inductive ClientPoint where
  | idle
  -- `if (m_owns_..._rate_limit) instance.remove_limit(m_request...._rate_limit)`
  | removeOwned (type : RateLimitType) (sequel : Sequel)
  -- the handle that `remove_limit` has taken out of the registry is destroyed
  | destroyRetired (id : LimitId) (type : RateLimitType) (sequel : Sequel)
  | reset (type : RateLimitType) (sequel : Sequel)
  | resume (type : RateLimitType) (sequel : Sequel)
  | destroyTemporary (id : LimitId)
  | destroyed
deriving DecidableEq

/-- The members of `HttpClient` that its rate-limit functions use. `created` lists what
`set_rate_limit` has created; no function reads it. -/
structure ClientLimits where
  rateLimit : RateLimitType → HttpRateLimitHandlePtr := fun _ => none
  owns : RateLimitType → Bool := fun _ => false
  point : ClientPoint := .idle
  created : List (LimitId × LimitParams) := []

/-- The functions of `HttpClient` that a user calls. A handle given to
`assign_rate_limit_handle` is one the caller keeps until the call returns. -/
inductive ClientCall where
  | clearRateLimit (type : RateLimitType)
  | assignRateLimitHandle (limit : HttpRateLimitHandlePtr) (type : RateLimitType)
  | assignRateLimitId (limitId : LimitId) (type : RateLimitType)
  | setRateLimit (requestsPerPeriod periodMs : ℤ) (type : RateLimitType) (sequential : Bool)
  | setRateLimitRpm (requestsPerMinute : ℤ) (type : RateLimitType) (sequential : Bool)
  | setRateLimitRps (requestsPerSecond : ℤ) (type : RateLimitType) (sequential : Bool)
  | destroy

/-- The handle that a function holds besides the two of the client. -/
def Sequel.handles : Sequel → List LimitId
  | .assign id _ => [id]
  | _ => []

/-- The handles that the functions of a client hold besides the two of the client. -/
def ClientPoint.handles : ClientPoint → List LimitId
  | .idle | .destroyed => []
  | .removeOwned _ sequel | .reset _ sequel | .resume _ sequel => sequel.handles
  | .destroyRetired id _ sequel => id :: sequel.handles
  | .destroyTemporary id => [id]

namespace ClientLimits

variable (client : ClientLimits)

/-- All handles of a client. -/
def handles : List LimitId :=
  (client.rateLimit .general).toList ++ (client.rateLimit .specific).toList ++
    client.point.handles

def goto (point : ClientPoint) : ClientLimits :=
  { client with point }

/-- `set_rate_limit` clears the slot first. -/
def setRateLimit (params : LimitParams) (type : RateLimitType) : ClientLimits :=
  client.goto (.removeOwned type (.create params))

/-- The client after the first part of a call, and the call of the limiter in it. -/
def call (limiter : HttpRateLimiter) : ClientCall → ClientLimits × Option LimiterAction
  | .clearRateLimit type => (client.goto (.removeOwned type .nothing), none)
  | .assignRateLimitHandle none _ => (client, none)
  | .assignRateLimitHandle (some id) type =>
    (client.goto (.removeOwned type (.assign id false)), none)
  | .assignRateLimitId limitId type =>
    match getLimit limiter limitId with
    | none => (client, some (.getLimit limitId))
    | some id => (client.goto (.removeOwned type (.assign id true)), some (.getLimit limitId))
  | .setRateLimit requestsPerPeriod periodMs type sequential =>
    (client.setRateLimit ⟨requestsPerPeriod, periodMs, sequential⟩ type, none)
  -- one minute and one second in milliseconds
  | .setRateLimitRpm requestsPerMinute type sequential =>
    (client.setRateLimit ⟨requestsPerMinute, 60000, sequential⟩ type, none)
  | .setRateLimitRps requestsPerSecond type sequential =>
    (client.setRateLimit ⟨requestsPerSecond, 1000, sequential⟩ type, none)
  | .destroy => (client.goto (.removeOwned .general .clearSpecific), none)

/-- `m_request...._rate_limit.reset()` and `m_owns_..._rate_limit = false`. -/
def resetSlot (type : RateLimitType) : ClientLimits :=
  { client with
    rateLimit := Function.update client.rateLimit type none
    owns := Function.update client.owns type false }

/-- The client after its next statement, and the call of the limiter in it. -/
def advance (limiter : HttpRateLimiter) : Option (ClientLimits × Option LimiterAction) :=
  match client.point with
  | .idle | .destroyed => none
  | .removeOwned type sequel =>
    match client.owns type, client.rateLimit type with
    | true, some id =>
      some (client.goto (if id ∈ limiter.ownedHandles then .destroyRetired id type sequel
        else .reset type sequel), some (.removeLimit id))
    | _, _ => some (client.goto (.reset type sequel), none)
  | .destroyRetired id type sequel =>
    some (client.goto (.reset type sequel), some (.dropHandle id))
  | .reset type sequel =>
    some ((client.resetSlot type).goto (.resume type sequel),
      (client.rateLimit type).map .dropHandle)
  | .resume _ .nothing => some (client.goto .idle, none)
  | .resume type (.assign id temporary) =>
    some ({ client with
      rateLimit := Function.update client.rateLimit type (some id)
      point := if temporary then .destroyTemporary id else .idle }, some (.copyHandle id))
  | .resume type (.create params) =>
    some ({ client with
      rateLimit := Function.update client.rateLimit type (some limiter.nextId)
      owns := Function.update client.owns type true
      point := .idle
      created := client.created ++ [(limiter.nextId, params)] },
      some (.createLimitHandle params.requestsPerPeriod params.periodMs params.sequential))
  | .resume _ .clearSpecific => some (client.goto (.removeOwned .specific .destroyed), none)
  | .resume _ .destroyed => some (client.goto .destroyed, none)
  | .destroyTemporary id => some (client.goto .idle, some (.dropHandle id))

end ClientLimits

/-! ### Clients and everybody else -/

/-- A limiter with its clients. `copies` counts the handles of everybody. -/
structure ClientWorld extends LimiterWorld where
  clients : List ClientLimits := []

/-- What clients, requests and other users do. `copyToRequest` is the part of `make_request`
that copies one of the two handles into a request. -/
inductive ClientAction where
  | user (action : LimiterAction)
  | construct
  | call (client : ℕ) (call : ClientCall)
  | advance (client : ℕ)
  | copyToRequest (client : ℕ) (type : RateLimitType)

namespace ClientWorld

variable (world : ClientWorld)

/-- The handles of the clients. -/
def clientHandles : List LimitId :=
  world.clients.flatMap ClientLimits.handles

/-- Somebody other than the clients has a copy of the handle. -/
def Elsewhere (id : LimitId) : Prop :=
  world.clientHandles.count id < world.copies.count id

instance (id : LimitId) : Decidable (world.Elsewhere id) :=
  inferInstanceAs (Decidable (_ < _))

/-- A handle that is destroyed or given to a call is not one of a client. -/
def Available : ClientAction → Prop
  | .user (.dropHandle id) => world.Elsewhere id
  | .call _ (.assignRateLimitHandle (some id) _) => world.Elsewhere id
  | _ => True

instance decidableAvailable : ∀ action, Decidable (world.Available action)
  | .user (.dropHandle id) => inferInstanceAs (Decidable (world.Elsewhere id))
  | .call _ (.assignRateLimitHandle (some id) _) =>
    inferInstanceAs (Decidable (world.Elsewhere id))
  | .user (.createLimitHandle _ _ _) | .user (.copyHandle _) | .user (.removeLimit _)
  | .user (.getLimit _) | .user (.allowRequest _ _) | .user (.releaseRequest _)
  | .construct | .call _ (.clearRateLimit _) | .call _ (.assignRateLimitHandle none _)
  | .call _ (.assignRateLimitId _ _) | .call _ (.setRateLimit _ _ _ _)
  | .call _ (.setRateLimitRpm _ _ _) | .call _ (.setRateLimitRps _ _ _) | .call _ .destroy
  | .advance _ | .copyToRequest _ _ => isTrue trivial

/-- The limiter after a call that may be none. -/
def limiterAfter : Option LimiterAction → Option LimiterWorld
  | none => some world.toLimiterWorld
  | some action => limiterSystem.step world.toLimiterWorld action

/-- A client has made a call of the limiter and is in the given state afterwards. -/
def perform (index : ℕ) (outcome : ClientLimits × Option LimiterAction) : Option ClientWorld :=
  (world.limiterAfter outcome.2).map fun limiter =>
    { toLimiterWorld := limiter, clients := world.clients.set index outcome.1 }

/-- One action, if it can happen. -/
def step (action : ClientAction) : Option ClientWorld :=
  if world.Available action then
    match action with
    | .user action =>
      (limiterSystem.step world.toLimiterWorld action).map fun limiter =>
        { world with toLimiterWorld := limiter }
    | .construct => some { world with clients := world.clients ++ [{}] }
    | .call index call =>
      match world.clients[index]? with
      | some { point := .idle, rateLimit, owns, created } =>
        world.perform index
          (ClientLimits.call { rateLimit, owns, created } world.limiter call)
      | _ => none
    | .advance index =>
      (world.clients[index]?).bind fun client =>
        (client.advance world.limiter).bind (world.perform index)
    | .copyToRequest index type =>
      (world.clients[index]?).bind fun client =>
        world.perform index (client, (client.rateLimit type).map .copyHandle)
  else none

end ClientWorld

/-- The clients of one limiter, from its construction on. -/
def clientSystem : System ClientWorld ClientAction where
  init := {}
  step := ClientWorld.step

/-! ### What one step can do -/

/-- The statements of a client, with what they need and what they leave. -/
inductive Advances (limiter : HttpRateLimiter) (client : ClientLimits) :
    ClientLimits × Option LimiterAction → Prop where
  | withdraw {type sequel id} (at_ : client.point = .removeOwned type sequel)
      (owned : client.owns type = true) (slot : client.rateLimit type = some id)
      (found : id ∈ limiter.ownedHandles) : Advances limiter client
        (client.goto (.destroyRetired id type sequel), some (.removeLimit id))
  | withdrawn {type sequel id} (at_ : client.point = .removeOwned type sequel)
      (owned : client.owns type = true) (slot : client.rateLimit type = some id)
      (absent : id ∉ limiter.ownedHandles) : Advances limiter client
        (client.goto (.reset type sequel), some (.removeLimit id))
  | foreign {type sequel} (at_ : client.point = .removeOwned type sequel)
      (other : client.owns type = false ∨ client.rateLimit type = none) : Advances limiter client
        (client.goto (.reset type sequel), none)
  | retire {id type sequel} (at_ : client.point = .destroyRetired id type sequel) :
      Advances limiter client (client.goto (.reset type sequel), some (.dropHandle id))
  | reset {type sequel} (at_ : client.point = .reset type sequel) : Advances limiter client
      ((client.resetSlot type).goto (.resume type sequel),
        (client.rateLimit type).map .dropHandle)
  | finish {type} (at_ : client.point = .resume type .nothing) :
      Advances limiter client (client.goto .idle, none)
  | assign {type id temporary} (at_ : client.point = .resume type (.assign id temporary)) :
      Advances limiter client ({ client with
        rateLimit := Function.update client.rateLimit type (some id)
        point := if temporary then .destroyTemporary id else .idle }, some (.copyHandle id))
  | create {type params} (at_ : client.point = .resume type (.create params)) :
      Advances limiter client ({ client with
        rateLimit := Function.update client.rateLimit type (some limiter.nextId)
        owns := Function.update client.owns type true
        point := .idle
        created := client.created ++ [(limiter.nextId, params)] },
        some (.createLimitHandle params.requestsPerPeriod params.periodMs params.sequential))
  | clearSpecific {type} (at_ : client.point = .resume type .clearSpecific) :
      Advances limiter client (client.goto (.removeOwned .specific .destroyed), none)
  | destroyed {type} (at_ : client.point = .resume type .destroyed) :
      Advances limiter client (client.goto .destroyed, none)
  | destroyTemporary {id} (at_ : client.point = .destroyTemporary id) :
      Advances limiter client (client.goto .idle, some (.dropHandle id))

theorem advances_of_advance {limiter : HttpRateLimiter} {client : ClientLimits}
    {outcome : ClientLimits × Option LimiterAction}
    (advanced : client.advance limiter = some outcome) : Advances limiter client outcome := by
  unfold ClientLimits.advance at advanced
  split at advanced
  · cases advanced
  · cases advanced
  · rename_i type sequel at_
    split at advanced
    · rename_i owned slot
      obtain rfl := Option.some.inj advanced
      split
      · rename_i found
        exact .withdraw at_ owned slot found
      · rename_i absent
        exact .withdrawn at_ owned slot absent
    · rename_i other
      obtain rfl := Option.some.inj advanced
      refine .foreign at_ ?_
      cases owned : client.owns type with
      | false => exact Or.inl rfl
      | true =>
        cases slot : client.rateLimit type with
        | none => exact Or.inr rfl
        | some id => exact absurd slot (other id owned)
  all_goals
    rename_i at_
    obtain rfl := Option.some.inj advanced
  · exact .retire at_
  · exact .reset at_
  · exact .finish at_
  · exact .assign at_
  · exact .create at_
  · exact .clearSpecific at_
  · exact .destroyed at_
  · exact .destroyTemporary at_

/-- The client has no limit of this type. -/
def ClientLimits.Empty (client : ClientLimits) (type : RateLimitType) : Prop :=
  client.owns type = false ∧ client.rateLimit type = none

namespace ClientLimits

variable (client : ClientLimits) (type : RateLimitType)

theorem resetSlot_empty : (client.resetSlot type).Empty type := by
  constructor <;> simp only [resetSlot, Function.update_self]

variable {client}

theorem Empty.resetSlot {other : RateLimitType} (empty : client.Empty other) :
    (client.resetSlot type).Empty other := by
  by_cases same : other = type
  · subst same
    exact client.resetSlot_empty other
  · constructor
    · simp only [ClientLimits.resetSlot, Function.update_of_ne same, empty.1]
    · simp only [ClientLimits.resetSlot, Function.update_of_ne same, empty.2]

end ClientLimits

/-- The destructor takes the two types in order. -/
def Sequel.Fits (client : ClientLimits) (type : RateLimitType) : Sequel → Prop
  | .clearSpecific => type = .general
  | .destroyed => type = .specific ∧ client.Empty .general
  | _ => True

/-- The first parts of calls, with what they need and what they leave. -/
inductive Begins (limiter : HttpRateLimiter) (client : ClientLimits) :
    ClientCall → ClientLimits × Option LimiterAction → Prop where
  | refused {type} : Begins limiter client (.assignRateLimitHandle none type) (client, none)
  | missed {limitId type} :
      Begins limiter client (.assignRateLimitId limitId type) (client, some (.getLimit limitId))
  | clears {call type sequel} (alone : sequel.handles = []) (fits : sequel.Fits client type) :
      Begins limiter client call (client.goto (.removeOwned type sequel), none)
  | lent {id type} : Begins limiter client (.assignRateLimitHandle (some id) type)
      (client.goto (.removeOwned type (.assign id false)), none)
  | found {id type} (registered : id ∈ limiter.ownedHandles) :
      Begins limiter client (.assignRateLimitId id type)
        (client.goto (.removeOwned type (.assign id true)), some (.getLimit id))

theorem begins_call (limiter : HttpRateLimiter) (client : ClientLimits) (call : ClientCall) :
    Begins limiter client call (client.call limiter call) := by
  cases call with
  | clearRateLimit => exact .clears rfl trivial
  | assignRateLimitHandle limit =>
    cases limit with
    | none => exact .refused
    | some id => exact .lent
  | assignRateLimitId limitId =>
    by_cases registered : limitId ∈ limiter.ownedHandles
    · simp only [ClientLimits.call, getLimit, if_pos registered]
      exact .found registered
    · simp only [ClientLimits.call, getLimit, if_neg registered]
      exact .missed
  | setRateLimit | setRateLimitRpm | setRateLimitRps => exact .clears rfl trivial
  | destroy => exact .clears rfl rfl

/-- What a client does in one step. -/
inductive Turn (world : ClientWorld) (client : ClientLimits) :
    ClientLimits × Option LimiterAction → Prop where
  | begins {call outcome index} (idle : client.point = .idle)
      (available : world.Available (.call index call))
      (begins : Begins world.limiter client call outcome) : Turn world client outcome
  | advances {outcome} (advances : Advances world.limiter client outcome) :
      Turn world client outcome
  | copies (type : RateLimitType) :
      Turn world client (client, (client.rateLimit type).map .copyHandle)

/-- The steps of clients and others, with what they need and what they leave. -/
inductive ClientStep (world : ClientWorld) : ClientAction → ClientWorld → Prop where
  | user {action limiter} (available : world.Available (.user action))
      (stepped : limiterSystem.step world.toLimiterWorld action = some limiter) :
      ClientStep world (.user action) { world with toLimiterWorld := limiter }
  | construct : ClientStep world .construct { world with clients := world.clients ++ [{}] }
  | turn {action index client outcome limiter} (found : world.clients[index]? = some client)
      (turn : Turn world client outcome)
      (advances : (∃ other, outcome.2 = some (.removeLimit other)) → action = .advance index)
      (after : world.limiterAfter outcome.2 = some limiter) :
      ClientStep world action
        { toLimiterWorld := limiter, clients := world.clients.set index outcome.1 }

theorem Begins.keeps {limiter : HttpRateLimiter} {client : ClientLimits} {call : ClientCall}
    {outcome : ClientLimits × Option LimiterAction} (begins : Begins limiter client call outcome)
    (id : LimitId) : outcome.2 ≠ some (.removeLimit id) := by
  cases begins <;> simp

theorem clientStep_of_step {world next : ClientWorld} {action : ClientAction}
    (stepped : clientSystem.step world action = some next) : ClientStep world action next := by
  change world.step action = some next at stepped
  unfold ClientWorld.step at stepped
  split at stepped
  · rename_i available
    cases action with
    | user action =>
      obtain ⟨limiter, moved, rfl⟩ := Option.map_eq_some_iff.mp stepped
      exact .user available moved
    | construct =>
      obtain rfl := Option.some.inj stepped
      exact .construct
    | call index call =>
      dsimp only at stepped
      split at stepped
      · rename_i rateLimit owns created found
        obtain ⟨limiter, after, rfl⟩ := Option.map_eq_some_iff.mp stepped
        have begins := begins_call world.limiter { rateLimit, owns, created } call
        refine .turn found (.begins rfl available begins) ?_ after
        rintro ⟨other, same⟩
        exact absurd same (begins.keeps other)
      · cases stepped
    | advance index =>
      obtain ⟨client, found, advanced⟩ := Option.bind_eq_some_iff.mp stepped
      obtain ⟨outcome, turned, performed⟩ := Option.bind_eq_some_iff.mp advanced
      obtain ⟨limiter, after, rfl⟩ := Option.map_eq_some_iff.mp performed
      exact .turn found (.advances (advances_of_advance turned)) (fun _ => rfl) after
    | copyToRequest index type =>
      obtain ⟨client, found, performed⟩ := Option.bind_eq_some_iff.mp stepped
      obtain ⟨limiter, after, rfl⟩ := Option.map_eq_some_iff.mp performed
      refine .turn found (.copies type) ?_ after
      rintro ⟨other, same⟩
      obtain ⟨_, _, impossible⟩ := Option.map_eq_some_iff.mp same
      cases impossible
  · cases stepped

/-! ### The limiter runs as if it were alone -/

theorem ClientWorld.limiterAfter_runs {world : ClientWorld} {move : Option LimiterAction}
    {limiter : LimiterWorld} (after : world.limiterAfter move = some limiter) :
    limiterSystem.Runs world.toLimiterWorld move.toList limiter := by
  cases move with
  | none => exact System.runs_nil.mpr (Option.some.inj after)
  | some action => exact System.runs_cons.mpr ⟨limiter, after, System.runs_nil.mpr rfl⟩

/-- Whatever clients and users do, the limiter is in a state of its own. -/
theorem limiter_of_clients {world : ClientWorld} (reachable : clientSystem.Reachable world) :
    limiterSystem.Reachable world.toLimiterWorld := by
  refine reachable.induction (fun world => limiterSystem.Reachable world.toLimiterWorld)
    System.reachable_init ?_
  intro world action next _ limiter stepped
  cases clientStep_of_step stepped with
  | user available moved => exact limiter.step moved
  | construct => exact limiter
  | turn found turn advances after => exact limiter.runs (ClientWorld.limiterAfter_runs after)

/-! ### The handles of the clients are among the copies -/

/-- The copies that a call of the limiter adds. -/
def gained (limiter : HttpRateLimiter) : LimiterAction → List LimitId
  | .createLimitHandle _ _ _ => [limiter.nextId]
  | .copyHandle id => [id]
  | .removeLimit id | .getLimit id => if id ∈ limiter.ownedHandles then [id] else []
  | _ => []

/-- The copies that a call of the limiter destroys. -/
def lost : LimiterAction → List LimitId
  | .dropHandle id => [id]
  | _ => []

theorem copies_balance {before after : LimiterWorld} {action : LimiterAction}
    (stepped : limiterSystem.step before action = some after) (id : LimitId) :
    after.copies.count id + (lost action).count id =
      before.copies.count id + (gained before.limiter action).count id := by
  cases action with
  | createLimitHandle requestsPerPeriod periodMs sequential =>
    obtain rfl := Option.some.inj stepped
    simp [LimiterWorld.createLimitHandle, createLimitHandle, gained, lost, List.count_cons]
  | copyHandle other =>
    simp only [limiterSystem, LimiterWorld.step, Option.ite_none_right_eq_some,
      Option.some.injEq] at stepped
    obtain ⟨_, rfl⟩ := stepped
    simp [gained, lost, List.count_cons]
  | dropHandle other =>
    simp only [limiterSystem, LimiterWorld.step, Option.ite_none_right_eq_some,
      Option.some.injEq] at stepped
    obtain ⟨held, rfl⟩ := stepped
    have positive := List.count_pos_iff.mpr held
    simp only [LimiterWorld.dropHandle, gained, lost, List.count_erase, List.count_singleton,
      List.count_nil]
    by_cases same : other = id
    · subst same
      simp only [beq_self_eq_true, if_true]
      omega
    · have distinct : (other == id) = false := beq_false_of_ne same
      simp only [distinct, Bool.false_eq_true, if_false]
      omega
  | removeLimit other =>
    obtain rfl := Option.some.inj stepped
    simp only [LimiterWorld.removeLimit, removeLimit, gained, lost]
    split <;> simp [List.count_cons]
  | getLimit other =>
    obtain rfl := Option.some.inj stepped
    simp only [getLimit, gained, lost]
    split <;> simp [List.count_cons]
  | allowRequest call now =>
    simp only [limiterSystem, LimiterWorld.step, Option.ite_none_right_eq_some,
      Option.some.injEq] at stepped
    obtain ⟨_, rfl⟩ := stepped
    rfl
  | releaseRequest call =>
    simp only [limiterSystem, LimiterWorld.step, Option.ite_none_right_eq_some,
      Option.some.injEq] at stepped
    obtain ⟨_, rfl⟩ := stepped
    rfl

namespace ClientLimits

theorem count_handles (client : ClientLimits) (id : LimitId) :
    client.handles.count id = (client.rateLimit .general).toList.count id +
      (client.rateLimit .specific).toList.count id + client.point.handles.count id := by
  rw [handles, List.count_append, List.count_append]

/-- Writing a slot and going on to another statement exchanges the handles that are there. -/
theorem count_handles_update (client next : ClientLimits) (type : RateLimitType)
    (slot : HttpRateLimitHandlePtr)
    (written : next.rateLimit = Function.update client.rateLimit type slot) (id : LimitId) :
    next.handles.count id + (client.rateLimit type).toList.count id +
        client.point.handles.count id =
      client.handles.count id + slot.toList.count id + next.point.handles.count id := by
  rw [count_handles, count_handles, written]
  cases type with
  | general =>
    rw [Function.update_self, Function.update_of_ne (by decide)]
    omega
  | specific =>
    rw [Function.update_self, Function.update_of_ne (by decide)]
    omega

theorem count_handles_goto (client : ClientLimits) (point : ClientPoint) (id : LimitId) :
    (client.goto point).handles.count id + client.point.handles.count id =
      client.handles.count id + point.handles.count id := by
  rw [count_handles, count_handles]
  dsimp only [goto]
  omega

end ClientLimits

/-- The handles that a client acquires in a statement are copies that the limiter makes in it, and
those of which the copy is destroyed it gives up. -/
theorem Advances.balance {limiter : HttpRateLimiter} {client : ClientLimits}
    {outcome : ClientLimits × Option LimiterAction} (advances : Advances limiter client outcome)
    (id : LimitId) :
    outcome.1.handles.count id + (outcome.2.toList.flatMap lost).count id ≤
      client.handles.count id + (outcome.2.toList.flatMap (gained limiter)).count id := by
  cases advances with
  | @withdraw type sequel other at_ owned slot found =>
    have moved := client.count_handles_goto (.destroyRetired other type sequel) id
    rw [at_] at moved
    simp [ClientPoint.handles, gained, lost, found, List.count_cons] at moved ⊢
    omega
  | @withdrawn type sequel _ at_ owned slot absent =>
    have moved := client.count_handles_goto (.reset type sequel) id
    rw [at_] at moved
    simp [ClientPoint.handles, lost] at moved ⊢
    omega
  | @foreign type sequel at_ other =>
    have moved := client.count_handles_goto (.reset type sequel) id
    rw [at_] at moved
    simp [ClientPoint.handles] at moved ⊢
    omega
  | @retire other type sequel at_ =>
    have moved := client.count_handles_goto (.reset type sequel) id
    rw [at_] at moved
    simp [ClientPoint.handles, gained, lost, List.count_cons] at moved ⊢
    omega
  | @reset type sequel at_ =>
    have written := client.count_handles_update
      ((client.resetSlot type).goto (.resume type sequel)) type none rfl id
    rw [at_] at written
    cases slot : client.rateLimit type <;>
      simp [slot, ClientPoint.handles, ClientLimits.goto, gained, lost, List.count_cons]
        at written ⊢ <;> omega
  | finish at_ =>
    have moved := client.count_handles_goto .idle id
    rw [at_] at moved
    simp [ClientPoint.handles] at moved ⊢
    omega
  | @assign type other temporary at_ =>
    have written := client.count_handles_update { client with
      rateLimit := Function.update client.rateLimit type (some other)
      point := if temporary then .destroyTemporary other else .idle } type (some other) rfl id
    rw [at_] at written
    cases temporary <;>
      simp [ClientPoint.handles, Sequel.handles, gained, lost, List.count_cons] at written ⊢ <;>
      omega
  | @create type params at_ =>
    have written := client.count_handles_update { client with
      rateLimit := Function.update client.rateLimit type (some limiter.nextId)
      owns := Function.update client.owns type true
      point := .idle
      created := client.created ++ [(limiter.nextId, params)] } type (some limiter.nextId) rfl id
    rw [at_] at written
    simp [ClientPoint.handles, Sequel.handles, gained, lost, List.count_cons] at written ⊢
    omega
  | clearSpecific at_ =>
    have moved := client.count_handles_goto (.removeOwned .specific .destroyed) id
    rw [at_] at moved
    simp [ClientPoint.handles, Sequel.handles] at moved ⊢
    omega
  | destroyed at_ =>
    have moved := client.count_handles_goto .destroyed id
    rw [at_] at moved
    simp [ClientPoint.handles, Sequel.handles] at moved ⊢
    omega
  | @destroyTemporary other at_ =>
    have moved := client.count_handles_goto .idle id
    rw [at_] at moved
    simp [ClientPoint.handles, gained, lost, List.count_cons] at moved ⊢
    omega

/-- A call acquires a handle that the limiter makes in it, or the one that it is given. -/
theorem Begins.balance {world : ClientWorld} {client : ClientLimits} {call : ClientCall}
    {outcome : ClientLimits × Option LimiterAction}
    (begins : Begins world.limiter client call outcome) (idle : client.point = .idle)
    (id : LimitId) :
    (outcome.2.toList.flatMap lost).count id = 0 ∧
      (outcome.1.handles.count id ≤
          client.handles.count id + (outcome.2.toList.flatMap (gained world.limiter)).count id ∨
        outcome.1.handles.count id = client.handles.count id + 1 ∧
          ∃ type, call = .assignRateLimitHandle (some id) type) := by
  cases begins with
  | refused => exact ⟨rfl, Or.inl (Nat.le_add_right _ _)⟩
  | missed => exact ⟨rfl, Or.inl (Nat.le_add_right _ _)⟩
  | @clears call type sequel alone fits =>
    have moved := client.count_handles_goto (.removeOwned type sequel) id
    rw [idle] at moved
    simp [ClientPoint.handles, alone] at moved ⊢
    omega
  | @lent other type =>
    have moved := client.count_handles_goto (.removeOwned type (.assign other false)) id
    rw [idle] at moved
    simp [ClientPoint.handles, Sequel.handles, List.count_cons] at moved ⊢
    split at moved
    · rename_i same
      exact Or.inr ⟨moved, same⟩
    · exact Or.inl (by omega)
  | @found other type registered =>
    have moved := client.count_handles_goto (.removeOwned type (.assign other true)) id
    rw [idle] at moved
    simp [ClientPoint.handles, Sequel.handles, gained, lost, registered, List.count_cons]
      at moved ⊢
    omega

namespace ClientWorld

/-- Every handle of a client is a copy of its own. -/
def Covered (world : ClientWorld) : Prop :=
  ∀ id, world.clientHandles.count id ≤ world.copies.count id

theorem count_set {world : ClientWorld} {index : ℕ} {client : ClientLimits}
    (found : world.clients[index]? = some client) (next : ClientLimits) (id : LimitId) :
    ((world.clients.set index next).flatMap ClientLimits.handles).count id +
        client.handles.count id =
      world.clientHandles.count id + next.handles.count id := by
  obtain ⟨before, after, split, _, _, written⟩ := exists_split found
  rw [written, clientHandles, split]
  simp only [List.flatMap_append, List.flatMap_cons, List.count_append]
  omega

theorem limiterAfter_balance {world : ClientWorld} {move : Option LimiterAction}
    {limiter : LimiterWorld} (after : world.limiterAfter move = some limiter) (id : LimitId) :
    limiter.copies.count id + (move.toList.flatMap lost).count id =
      world.copies.count id + (move.toList.flatMap (gained world.limiter)).count id := by
  cases move with
  | none =>
    obtain rfl := Option.some.inj after
    rfl
  | some action =>
    simpa only [Option.toList_some, List.flatMap_cons, List.flatMap_nil, List.append_nil]
      using copies_balance after id

theorem Covered.step {world next : ClientWorld} {action : ClientAction}
    (covered : world.Covered) (step : ClientStep world action next) : next.Covered := by
  intro id
  have before := covered id
  cases step with
  | @user move limiter available stepped =>
    have balance := copies_balance stepped id
    change world.clientHandles.count id ≤ limiter.copies.count id
    cases move with
    | dropHandle other =>
      simp only [lost, gained, List.count_nil, List.count_singleton] at balance
      split at balance
      · rename_i same
        obtain rfl := eq_of_beq same
        have elsewhere : world.clientHandles.count other < world.copies.count other := available
        omega
      · omega
    | _ =>
      simp only [lost, List.count_nil] at balance
      omega
  | construct =>
    change ((world.clients ++ [({} : ClientLimits)]).flatMap ClientLimits.handles).count id ≤
      world.copies.count id
    rw [List.flatMap_append, List.count_append]
    exact before
  | @turn _ index client outcome limiter found turn advances after =>
    have written := count_set found outcome.1 id
    have balance := limiterAfter_balance after id
    change ((world.clients.set index outcome.1).flatMap ClientLimits.handles).count id ≤
      limiter.copies.count id
    cases turn with
    | @begins call _ other idle available begins =>
      obtain ⟨kept, acquired | ⟨acquired, type, rfl⟩⟩ := begins.balance idle id
      · omega
      · have elsewhere : world.clientHandles.count id < world.copies.count id := available
        omega
    | advances advances =>
      have moved := advances.balance id
      omega
    | copies type =>
      have none : (((client.rateLimit type).map LimiterAction.copyHandle).toList.flatMap
          lost).count id = 0 := by
        cases client.rateLimit type <;> rfl
      dsimp only at written balance ⊢
      omega

theorem covered_of_reachable {world : ClientWorld} (reachable : clientSystem.Reachable world) :
    world.Covered := by
  refine reachable.induction Covered (fun _ => Nat.le_refl _) ?_
  exact fun _ _ _ _ covered stepped => covered.step (clientStep_of_step stepped)

end ClientWorld

/-! ### What a client has created -/

/-- A client at its point, with the identifiers the registry has: behind the withdrawal the slot
holds nothing registered, and behind the reset it is empty. -/
def ClientPoint.Fits (client : ClientLimits) (registry : List LimitId) : ClientPoint → Prop
  | .idle | .destroyTemporary _ => True
  | .removeOwned type sequel => sequel.Fits client type
  | .destroyRetired _ type sequel | .reset type sequel => sequel.Fits client type ∧
      (client.owns type = true → ∀ id, client.rateLimit type = some id → id ∉ registry)
  | .resume type sequel => sequel.Fits client type ∧ client.Empty type
  | .destroyed => client.Empty .general ∧ client.Empty .specific

/-- What a client has created and what it owns. -/
structure ClientLimits.Sound (world : LimiterWorld) (client : ClientLimits) : Prop where
  recorded : ∀ id params, (id, params) ∈ client.created → .created id params ∈ world.history
  owned : ∀ type, client.owns type = true →
    ∃ id params, client.rateLimit type = some id ∧ (id, params) ∈ client.created
  registered : ∀ id params, (id, params) ∈ client.created → id ∈ world.limiter.ownedHandles →
    ∃ type, client.owns type = true ∧ client.rateLimit type = some id
  point : client.point.Fits client world.limiter.ownedHandles

/-- What the limiter does to its registry and its history: new identifiers are registered, and
nothing is forgotten. -/
structure Evolves (before after : LimiterWorld) : Prop where
  registry : ∀ id ∈ after.limiter.ownedHandles,
    id ∈ before.limiter.ownedHandles ∨ before.limiter.nextId ≤ id
  history : before.history ⊆ after.history

theorem Evolves.refl (world : LimiterWorld) : Evolves world world :=
  ⟨fun _ member => Or.inl member, fun _ member => member⟩

theorem dropHandle_owned (limiter : HttpRateLimiter) (remaining : List LimitId) (id : LimitId) :
    (dropHandle limiter remaining id).ownedHandles = limiter.ownedHandles := by
  unfold dropHandle
  split
  · rfl
  · exact removeLimitInternal_owned _ _

theorem evolves_of_step {before after : LimiterWorld} {action : LimiterAction}
    (stepped : limiterSystem.step before action = some after) : Evolves before after := by
  cases limiterStep_of_step stepped with
  | create params =>
    refine ⟨fun id member => ?_, List.subset_append_left _ _⟩
    rcases List.mem_cons.mp member with rfl | old
    · exact Or.inr (Nat.le_refl _)
    · exact Or.inl old
  | copy | idle => exact ⟨fun _ member => Or.inl member, fun _ member => member⟩
  | drop id =>
    refine ⟨fun other member => Or.inl ?_, fun _ member => member⟩
    exact dropHandle_owned before.limiter (before.copies.erase id) id ▸ member
  | remove id =>
    refine ⟨fun other member => Or.inl ?_, fun _ member => member⟩
    simp only [LimiterWorld.removeLimit, removeLimit] at member
    split at member
    · exact List.mem_of_mem_erase member
    · exact member
  | allow call now =>
    refine ⟨fun id member => Or.inl ?_, List.subset_append_left _ _⟩
    exact (allow_bookkeeping call before.limiter now).2 ▸ member
  | release call =>
    refine ⟨fun id member => Or.inl ?_, List.subset_append_left _ _⟩
    exact (release_bookkeeping call before.limiter).2 ▸ member

theorem Sequel.Fits.of_same {client next : ClientLimits} {type : RateLimitType} {sequel : Sequel}
    (fits : sequel.Fits client type) (owns : next.owns = client.owns)
    (rateLimit : next.rateLimit = client.rateLimit) : sequel.Fits next type := by
  cases sequel with
  | destroyed => simpa only [Sequel.Fits, ClientLimits.Empty, owns, rateLimit] using fits
  | _ => exact fits

theorem ClientPoint.Fits.shrink {client : ClientLimits} {registry later : List LimitId}
    {point : ClientPoint} (fits : point.Fits client registry)
    (shrinks : ∀ type id, client.owns type = true → client.rateLimit type = some id →
      id ∈ later → id ∈ registry) : point.Fits client later := by
  cases point with
  | destroyRetired _ type _ | reset type _ =>
    exact ⟨fits.1, fun owns id slot member =>
      fits.2 owns id slot (shrinks type id owns slot member)⟩
  | _ => exact fits

namespace ClientLimits.Sound

variable {before after : LimiterWorld} {client : ClientLimits}

/-- What others do to the limiter leaves the limits of a client alone, or withdraws them. -/
theorem evolve (sound : client.Sound before) (accounts : Accounts before)
    (evolves : Evolves before after) : client.Sound after := by
  have registry : ∀ id params, (id, params) ∈ client.created →
      id ∈ after.limiter.ownedHandles → id ∈ before.limiter.ownedHandles := by
    intro id params created member
    have below := accounts.createdBelow id params (sound.recorded id params created)
    exact (evolves.registry id member).resolve_right (Nat.not_le_of_lt below)
  refine ⟨?_, sound.owned, ?_, ?_⟩
  · exact fun id params created => evolves.history (sound.recorded id params created)
  · intro id params created member
    exact sound.registered id params created (registry id params created member)
  · refine sound.point.shrink fun type id owns slot member => ?_
    obtain ⟨other, params, held, created⟩ := sound.owned type owns
    obtain rfl : id = other := Option.some.inj (slot.symm.trans held)
    exact registry id params created member

/-- A client that only goes on to another statement. -/
theorem goto (sound : client.Sound before) {point : ClientPoint}
    (fits : point.Fits (client.goto point) before.limiter.ownedHandles) :
    (client.goto point).Sound before :=
  ⟨sound.recorded, sound.owned, sound.registered, fits⟩

/-- A slot that is written where the client owned nothing registered. -/
theorem write (sound : client.Sound before) {next : ClientLimits} (type : RateLimitType)
    (slot : HttpRateLimitHandlePtr)
    (vacant : client.owns type = true → ∀ id, client.rateLimit type = some id →
      id ∉ before.limiter.ownedHandles)
    (slots : next.rateLimit = Function.update client.rateLimit type slot)
    (owns : next.owns = Function.update client.owns type false)
    (created : next.created = client.created)
    (fits : next.point.Fits next before.limiter.ownedHandles) : next.Sound before := by
  refine ⟨?_, ?_, ?_, fits⟩
  · rw [created]
    exact sound.recorded
  · intro other owned
    rw [owns] at owned
    have different : other ≠ type := by
      rintro rfl
      rw [Function.update_self] at owned
      cases owned
    rw [Function.update_of_ne different] at owned
    rw [slots, created, Function.update_of_ne different]
    exact sound.owned other owned
  · intro id params member registered
    rw [created] at member
    obtain ⟨other, owned, held⟩ := sound.registered id params member registered
    have different : other ≠ type := by
      rintro rfl
      exact vacant owned id held registered
    refine ⟨other, ?_, ?_⟩
    · rw [owns, Function.update_of_ne different]
      exact owned
    · rw [slots, Function.update_of_ne different]
      exact held

end ClientLimits.Sound

/-- The registry is a map: no identifier is in it twice. -/
theorem registry_nodup {world : LimiterWorld} (reachable : limiterSystem.Reachable world) :
    world.limiter.ownedHandles.Nodup := by
  refine reachable.induction (fun world => world.limiter.ownedHandles.Nodup) List.nodup_nil ?_
  intro before action after reached nodup stepped
  cases limiterStep_of_step stepped with
  | create params =>
    refine List.nodup_cons.mpr ⟨fun member => ?_, nodup⟩
    obtain ⟨found, registered⟩ := (limiter_supports reached).owned _ member
    exact Nat.lt_irrefl _ ((limiter_supports reached).bounded _ _ registered.2)
  | copy | idle => exact nodup
  | drop id =>
    change (dropHandle before.limiter (before.copies.erase id) id).ownedHandles.Nodup
    rw [dropHandle_owned]
    exact nodup
  | remove id =>
    simp only [LimiterWorld.removeLimit, removeLimit]
    split
    · exact nodup.erase id
    · exact nodup
  | allow call now =>
    change (call.allow before.limiter now).2.ownedHandles.Nodup
    rw [(allow_bookkeeping call before.limiter now).2]
    exact nodup
  | release call =>
    change (call.release before.limiter).ownedHandles.Nodup
    rw [(release_bookkeeping call before.limiter).2]
    exact nodup

theorem evolves_of_limiterAfter {world : ClientWorld} {move : Option LimiterAction}
    {limiter : LimiterWorld} (after : world.limiterAfter move = some limiter) :
    Evolves world.toLimiterWorld limiter := by
  cases move with
  | none => exact Option.some.inj after ▸ .refl _
  | some action => exact evolves_of_step after

/-- A statement of the client keeps what is known of it. -/
theorem Advances.sound {world : ClientWorld} {limiter : LimiterWorld} {client : ClientLimits}
    {outcome : ClientLimits × Option LimiterAction}
    (advances : Advances world.limiter client outcome)
    (sound : client.Sound world.toLimiterWorld) (reachable : clientSystem.Reachable world)
    (after : world.limiterAfter outcome.2 = some limiter) : outcome.1.Sound limiter := by
  have alone := limiter_of_clients reachable
  have later := sound.evolve (limiter_accounts alone) (evolves_of_limiterAfter after)
  have fits := later.point
  cases advances with
  | @withdraw type sequel id at_ owned slot found =>
    rw [at_] at fits
    refine later.goto ⟨Sequel.Fits.of_same fits rfl rfl, fun _ other held => ?_⟩
    obtain rfl : other = id := Option.some.inj (held.symm.trans slot)
    have erased : limiter.limiter.ownedHandles = world.limiter.ownedHandles.erase other := by
      obtain rfl := Option.some.inj after
      simp only [LimiterWorld.removeLimit, removeLimit, if_pos found]
    rw [erased]
    exact (registry_nodup alone).not_mem_erase
  | @withdrawn type sequel id at_ owned slot absent =>
    rw [at_] at fits
    refine later.goto ⟨Sequel.Fits.of_same fits rfl rfl, fun _ other held => ?_⟩
    obtain rfl : other = id := Option.some.inj (held.symm.trans slot)
    have same : limiter.limiter.ownedHandles = world.limiter.ownedHandles := by
      obtain rfl := Option.some.inj after
      simp only [LimiterWorld.removeLimit, removeLimit, if_neg absent]
    rw [same]
    exact absent
  | @foreign type sequel at_ other =>
    rw [at_] at fits
    refine later.goto ⟨Sequel.Fits.of_same fits rfl rfl, fun owned id held => ?_⟩
    rcases other with free | empty
    · exact absurd (owned.symm.trans free) (by decide)
    · exact absurd (held.symm.trans empty) (by simp)
  | @retire id type sequel at_ =>
    rw [at_] at fits
    exact later.goto ⟨Sequel.Fits.of_same fits.1 rfl rfl, fits.2⟩
  | @reset type sequel at_ =>
    rw [at_] at fits
    refine later.write type none fits.2 rfl rfl rfl ⟨?_, client.resetSlot_empty type⟩
    cases sequel with
    | destroyed => exact ⟨fits.1.1, fits.1.2.resetSlot type⟩
    | _ => exact fits.1
  | finish at_ => exact later.goto trivial
  | @assign type id temporary at_ =>
    rw [at_] at fits
    refine later.write type (some id) ?_ rfl ?_ rfl ?_
    · exact fun owned => absurd (owned.symm.trans fits.2.1) (by decide)
    · rw [← fits.2.1, Function.update_eq_self]
    · cases temporary <;> exact trivial
  | @create type params at_ =>
    rw [at_] at fits
    obtain rfl := Option.some.inj after
    refine ⟨?_, ?_, ?_, trivial⟩
    · intro id found member
      rcases List.mem_append.mp member with old | new
      · exact later.recorded id found old
      · obtain ⟨rfl, rfl⟩ := Prod.mk.inj (List.mem_singleton.mp new)
        exact List.mem_append_right _ List.mem_cons_self
    · intro other owned
      by_cases same : other = type
      · subst same
        exact ⟨_, params, Function.update_self .., List.mem_append_right _ List.mem_cons_self⟩
      · dsimp only at owned
        rw [Function.update_of_ne same] at owned
        obtain ⟨id, found, held, created⟩ := later.owned other owned
        exact ⟨id, found, (Function.update_of_ne same _ _).trans held,
          List.mem_append_left _ created⟩
    · intro id found member registered
      rcases List.mem_append.mp member with old | new
      · obtain ⟨other, owned, held⟩ := later.registered id found old registered
        have different : other ≠ type := by
          rintro rfl
          exact absurd (owned.symm.trans fits.2.1) (by decide)
        exact ⟨other, (Function.update_of_ne different _ _).trans owned,
          (Function.update_of_ne different _ _).trans held⟩
      · obtain ⟨rfl, rfl⟩ := Prod.mk.inj (List.mem_singleton.mp new)
        exact ⟨type, Function.update_self .., Function.update_self ..⟩
  | @clearSpecific type at_ =>
    rw [at_] at fits
    obtain ⟨rfl, empty⟩ := fits
    exact later.goto ⟨rfl, empty⟩
  | @destroyed type at_ =>
    rw [at_] at fits
    obtain ⟨⟨rfl, general⟩, specific⟩ := fits
    exact later.goto ⟨general, specific⟩
  | destroyTemporary at_ => exact later.goto trivial

theorem Begins.sound {limiter : HttpRateLimiter} {world : LimiterWorld} {client : ClientLimits}
    {call : ClientCall} {outcome : ClientLimits × Option LimiterAction}
    (begins : Begins limiter client call outcome) (sound : client.Sound world) :
    outcome.1.Sound world := by
  cases begins with
  | refused | missed => exact sound
  | clears alone fits => exact sound.goto (fits.of_same rfl rfl)
  | lent | found => exact sound.goto trivial

/-- In every reachable world every client knows what it owns. -/
theorem clients_sound {world : ClientWorld} (reachable : clientSystem.Reachable world) :
    ∀ client ∈ world.clients, client.Sound world.toLimiterWorld := by
  refine reachable.induction
    (fun world => ∀ client ∈ world.clients, client.Sound world.toLimiterWorld)
    (fun _ member => absurd member List.not_mem_nil) ?_
  intro before action next reached sound stepped client member
  have accounts := limiter_accounts (limiter_of_clients reached)
  cases clientStep_of_step stepped with
  | user available moved => exact (sound client member).evolve accounts (evolves_of_step moved)
  | construct =>
    rcases List.mem_append.mp member with old | new
    · exact sound client old
    · obtain rfl := List.mem_singleton.mp new
      exact ⟨fun _ _ member => absurd member List.not_mem_nil,
        fun _ owned => absurd owned Bool.false_ne_true,
        fun _ _ member => absurd member List.not_mem_nil, trivial⟩
  | turn found turn advances after =>
    have evolves := evolves_of_limiterAfter after
    rcases List.mem_or_eq_of_mem_set member with old | rfl
    · exact (sound client old).evolve accounts evolves
    · have here := sound _ (List.mem_of_getElem? found)
      cases turn with
      | begins idle available begins => exact begins.sound (here.evolve accounts evolves)
      | advances advances => exact advances.sound here reached after
      | copies => exact here.evolve accounts evolves

/-! ### What the clients leave -/

section Clients

variable {world later : ClientWorld} {client : ClientLimits} {actions : List ClientAction}

/-- The two limits of a client are in force, with the parameters it has given to those it owns.
What it has created and the registry still has is what it owns at present, so after its destructor
the registry has nothing of it; and an entry that it leaves behind is marked removed, or gone, when
nobody holds a copy of the handle: no request, no other client and no user of the manager. -/
theorem client_limits (reachable : clientSystem.Reachable world) (member : client ∈ world.clients) :
    (∀ type id, client.rateLimit type = some id → ∃ params, Registered world.limiter id params ∧
        (client.owns type = true → (id, params) ∈ client.created)) ∧
      (∀ id params, (id, params) ∈ client.created → id ∈ world.limiter.ownedHandles →
        ∃ type, client.owns type = true ∧ client.rateLimit type = some id) ∧
      (client.point = .destroyed → ∀ id params, (id, params) ∈ client.created →
        id ∉ world.limiter.ownedHandles ∧
          (id ∉ world.copies → ∀ found, ¬ Registered world.limiter id found)) := by
  have alone := limiter_of_clients reachable
  have sound := clients_sound reachable client member
  have accounts := limiter_accounts alone
  refine ⟨fun type id slot => ?_, sound.registered, fun destroyed id params created => ?_⟩
  · have held : id ∈ world.copies := by
      refine List.count_pos_iff.mp (Nat.lt_of_lt_of_le ?_
        (ClientWorld.covered_of_reachable reachable id))
      refine List.count_pos_iff.mpr (List.mem_flatMap.mpr ⟨client, member, ?_⟩)
      refine List.mem_append_left _ (List.mem_append.mpr ?_)
      cases type with
      | general => exact Or.inl (Option.mem_toList.mpr slot)
      | specific => exact Or.inr (Option.mem_toList.mpr slot)
    obtain ⟨params, registered⟩ := (limiter_supports alone).live id held
    refine ⟨params, registered, fun owned => ?_⟩
    obtain ⟨other, given, same, created⟩ := sound.owned type owned
    obtain rfl : id = other := Option.some.inj (slot.symm.trans same)
    have history := accounts.present id params false registered.2
    obtain rfl := accounts.createdOnce id params given history (sound.recorded id given created)
    exact created
  · have unregistered : id ∉ world.limiter.ownedHandles := by
      intro registered
      obtain ⟨type, owned, _⟩ := sound.registered id params created registered
      have fits := sound.point
      rw [destroyed] at fits
      cases type with
      | general => exact absurd (owned.symm.trans fits.1.1) (by decide)
      | specific => exact absurd (owned.symm.trans fits.2.1) (by decide)
    refine ⟨unregistered, fun unheld found registered => ?_⟩
    rcases limiter_attended alone id found registered.2 with registry | user
    · exact unregistered registry
    · exact unheld user

/-- A client creates a limit and is destroyed. -/
def ownerDestroyed : List ClientAction :=
  [.construct, .call 0 (.setRateLimit 5 1000 .specific true)] ++ List.replicate 3 (.advance 0) ++
    .call 0 .destroy :: List.replicate 7 (.advance 0)

theorem client_limits_ownerDestroyed : ∃ world,
    clientSystem.Runs clientSystem.init ownerDestroyed world ∧
      1 ∉ world.limiter.ownedHandles ∧ ∀ found, ¬ Registered world.limiter 1 found := by
  have evaluated : (clientSystem.run clientSystem.init ownerDestroyed).any (fun world =>
      decide (world.clients.map (fun client => (client.point, client.created)) =
        [(.destroyed, [(1, ⟨5, 1000, true⟩)])] ∧ 1 ∉ world.copies)) = true := by
    decide +kernel
  obtain ⟨world, runs, checked⟩ := System.exists_runs evaluated
  obtain ⟨clients, unheld⟩ := of_decide_eq_true checked
  obtain ⟨client, rest, split, here, _⟩ := List.map_eq_cons_iff.mp clients
  obtain ⟨destroyed, created⟩ := Prod.mk.inj here
  have member : client ∈ world.clients := split ▸ List.mem_cons_self
  obtain ⟨_, _, left⟩ := client_limits ⟨_, runs⟩ member
  obtain ⟨withdrawn, gone⟩ := left destroyed 1 ⟨5, 1000, true⟩ (created ▸ List.mem_cons_self)
  exact ⟨world, runs, withdrawn, gone unheld⟩

/-- Only `remove_limit` takes an identifier out of the registry. -/
theorem registered_of_step {before after : LimiterWorld} {action : LimiterAction} {id : LimitId}
    (stepped : limiterSystem.step before action = some after)
    (registered : id ∈ before.limiter.ownedHandles) (other : action ≠ .removeLimit id) :
    id ∈ after.limiter.ownedHandles := by
  cases action with
  | createLimitHandle requestsPerPeriod periodMs sequential =>
    obtain rfl := Option.some.inj stepped
    exact List.mem_cons_of_mem _ registered
  | copyHandle | dropHandle | allowRequest | releaseRequest =>
    simp only [limiterSystem, LimiterWorld.step, Option.ite_none_right_eq_some,
      Option.some.injEq] at stepped
    obtain ⟨_, rfl⟩ := stepped
    first
      | exact registered
      | exact (dropHandle_owned _ _ _).symm ▸ registered
      | exact (allow_bookkeeping _ _ _).2.symm ▸ registered
      | exact (release_bookkeeping _ _).2.symm ▸ registered
  | removeLimit removed =>
    obtain rfl := Option.some.inj stepped
    have different : id ≠ removed := fun same => other (same ▸ rfl)
    simp only [LimiterWorld.removeLimit, removeLimit]
    split
    · exact (List.mem_erase_of_ne different).mpr registered
    · exact registered
  | getLimit =>
    obtain rfl := Option.some.inj stepped
    exact registered

/-- A turn of a client records the limit it creates, and nothing else. -/
theorem Turn.created {outcome : ClientLimits × Option LimiterAction}
    (turn : Turn world client outcome) :
    outcome.1.created = client.created ∨
      ∃ params, outcome.1.created = client.created ++ [(world.limiter.nextId, params)] := by
  cases turn with
  | begins idle available begins => cases begins <;> exact Or.inl rfl
  | advances advances =>
    cases advances with
    | create => exact Or.inr ⟨_, rfl⟩
    | _ => exact Or.inl rfl
  | copies => exact Or.inl rfl

/-- A client withdraws nothing but what it has created. -/
theorem Turn.withdraws {outcome : ClientLimits × Option LimiterAction}
    (turn : Turn world client outcome) (sound : client.Sound world.toLimiterWorld) {id : LimitId}
    (removes : outcome.2 = some (.removeLimit id)) :
    ∃ params, (id, params) ∈ client.created := by
  have own : ∀ {type other}, client.owns type = true → client.rateLimit type = some other →
      some (LimiterAction.removeLimit other) = some (.removeLimit id) →
      ∃ params, (id, params) ∈ client.created := by
    intro type other owned slot same
    obtain rfl := LimiterAction.removeLimit.inj (Option.some.inj same)
    obtain ⟨given, params, held, created⟩ := sound.owned type owned
    obtain rfl : other = given := Option.some.inj (slot.symm.trans held)
    exact ⟨params, created⟩
  cases turn with
  | begins idle available begins => exact absurd removes (begins.keeps id)
  | advances advances =>
    cases advances with
    | withdraw at_ owned slot found => exact own owned slot removes
    | withdrawn at_ owned slot absent => exact own owned slot removes
    | @reset type =>
      obtain ⟨_, _, impossible⟩ := Option.map_eq_some_iff.mp removes
      cases impossible
    | _ => cases removes
  | copies type =>
    obtain ⟨_, _, impossible⟩ := Option.map_eq_some_iff.mp removes
    cases impossible

/-- The client at this place has created the limit. -/
def ClientWorld.Creator (world : ClientWorld) (id : LimitId) (index : ℕ) : Prop :=
  ∃ client, world.clients[index]? = some client ∧ ∃ params, (id, params) ∈ client.created

theorem ClientStep.creator {action : ClientAction} {next : ClientWorld} {id : LimitId} {index : ℕ}
    (step : ClientStep world action next) (old : id < world.limiter.nextId)
    (creator : next.Creator id index) : world.Creator id index := by
  cases step with
  | user available moved => exact creator
  | construct =>
    obtain ⟨client, found, params, created⟩ := creator
    rw [List.getElem?_append] at found
    split at found
    · exact ⟨client, found, params, created⟩
    · obtain rfl := List.mem_singleton.mp (List.mem_of_getElem? found)
      exact absurd created List.not_mem_nil
  | @turn _ turned client outcome limiter found turn advances after =>
    obtain ⟨other, there, params, created⟩ := creator
    rw [List.getElem?_set] at there
    split at there
    · rename_i same
      subst same
      split at there
      · obtain rfl := Option.some.inj there
        refine ⟨client, found, ?_⟩
        rcases turn.created with kept | ⟨given, more⟩
        · exact ⟨params, kept ▸ created⟩
        · rw [more] at created
          rcases List.mem_append.mp created with before | new
          · exact ⟨params, before⟩
          · obtain ⟨rfl, _⟩ := Prod.mk.inj (List.mem_singleton.mp new)
            exact absurd old (Nat.lt_irrefl _)
      · cases there
    · exact ⟨other, there, params, created⟩

/-- A registered limit stays registered, whatever clients it is assigned to, however they change
their limits and whichever of them are destroyed, until somebody calls `remove_limit` for it or the
client that has created it goes on. -/
theorem registered_stays (reachable : clientSystem.Reachable world)
    (runs : clientSystem.Runs world actions later) {id : LimitId}
    (registered : id ∈ world.limiter.ownedHandles)
    (kept : .user (.removeLimit id) ∉ actions)
    (idle : ∀ index, world.Creator id index → .advance index ∉ actions) :
    id ∈ later.limiter.ownedHandles := by
  refine (runs.induction (fun world => id ∈ world.limiter.ownedHandles ∧
    ∀ index, world.Creator id index → .advance index ∉ actions) reachable ⟨registered, idle⟩ ?_).1
  rintro before action next reached among ⟨registered, idle⟩ stepped
  have alone := limiter_of_clients reached
  have below : id < before.limiter.nextId := by
    obtain ⟨params, found⟩ := (limiter_supports alone).owned id registered
    exact (limiter_supports alone).bounded id _ found.2
  have step := clientStep_of_step stepped
  refine ⟨?_, fun index creator => idle index (step.creator below creator)⟩
  cases step with
  | user available moved =>
    refine registered_of_step moved registered ?_
    rintro rfl
    exact kept among
  | construct => exact registered
  | @turn _ index client outcome limiter found turn advances after =>
    cases move : outcome.2 with
    | none =>
      rw [move] at after
      obtain rfl := Option.some.inj after
      exact registered
    | some call =>
      rw [move] at after
      refine registered_of_step after registered ?_
      rintro rfl
      have sound := clients_sound reached client (List.mem_of_getElem? found)
      refine idle index ⟨client, found, turn.withdraws sound move⟩ ?_
      exact advances ⟨id, move⟩ ▸ among

/-- One client creates a limit and another is given it. -/
def sharedLimit : List ClientAction :=
  [.construct, .construct, .call 0 (.setRateLimitRpm 30 .general false)] ++
    List.replicate 3 (.advance 0) ++ [.call 1 (.assignRateLimitId 1 .specific)] ++
    List.replicate 4 (.advance 1)

/-- The client that was given the limit is destroyed. -/
def borrowerDestroyed : List ClientAction :=
  .call 1 .destroy :: List.replicate 6 (.advance 1)

theorem registered_stays_borrowerDestroyed : ∃ world later,
    clientSystem.Runs clientSystem.init sharedLimit world ∧
      clientSystem.Runs world borrowerDestroyed later ∧ 1 ∈ later.limiter.ownedHandles := by
  have evaluated : (clientSystem.run clientSystem.init sharedLimit).any (fun world =>
      (clientSystem.run world borrowerDestroyed).isSome &&
        decide (1 ∈ world.limiter.ownedHandles ∧
          (world.clients[1]?).map ClientLimits.created = some [])) = true := by
    decide +kernel
  obtain ⟨world, runs, checked⟩ := System.exists_runs evaluated
  obtain ⟨ends, holds⟩ := (Bool.and_eq_true _ _).mp checked
  obtain ⟨registered, nothing⟩ := of_decide_eq_true holds
  obtain ⟨later, destroyed⟩ := Option.isSome_iff_exists.mp ends
  refine ⟨world, later, runs, destroyed, registered_stays ⟨_, runs⟩ destroyed registered ?_ ?_⟩
  · simp [borrowerDestroyed]
  · rintro index ⟨client, found, params, created⟩
    have different : index ≠ 1 := by
      rintro rfl
      rw [found, Option.map_some, Option.some.injEq] at nothing
      rw [nothing] at created
      cases created
    simp [borrowerDestroyed, different]

end Clients

end Kurlyk.Http
