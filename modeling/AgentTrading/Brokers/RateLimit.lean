import Mathlib.Data.Rat.Floor
import AgentTrading.Domain.Entities

/-! Token buckets, the budget manager over them, and the circuit breaker. The clock is read
anew at every step of a function, so the readings are an argument. -/
namespace AgentTrading.Brokers
open Domain

inductive BucketType where
  | auth
  | order
  | inquiry
  | reconciliation
  | marketData
  | restGlobal
  deriving DecidableEq, Repr

def BucketType.value : BucketType → String
  | auth => "auth"
  | order => "order"
  | inquiry => "inquiry"
  | reconciliation => "reconciliation"
  | marketData => "market_data"
  | restGlobal => "global"

structure OperationBucket where
  capacity : Int
  refillRate : ℚ
  remaining : Int
  fractionalTokens : ℚ := 0
  refillAt : Time
  deriving DecidableEq

namespace OperationBucket

/-- `_refill` in exact arithmetic. -/
def refill (b : OperationBucket) (now : Time) : OperationBucket :=
  let elapsed : ℚ := (now - b.refillAt) / 1000000
  if elapsed > 0 then
    let accrued := b.fractionalTokens + elapsed * b.refillRate
    let tokensToAdd := accrued.num.tdiv accrued.den
    { b with
      fractionalTokens := accrued - tokensToAdd
      remaining := if tokensToAdd > 0 then min b.capacity (b.remaining + tokensToAdd)
        else b.remaining
      refillAt := now }
  else b

def tryConsume (b : OperationBucket) (tokens : Int) (now : Time) : Bool × OperationBucket :=
  let b := b.refill now
  if b.remaining ≥ tokens then (true, { b with remaining := b.remaining - tokens })
  else (false, b)

def release (b : OperationBucket) (tokens : Int) (now : Time) : OperationBucket :=
  let b := b.refill now
  { b with remaining := min b.capacity (b.remaining + tokens) }

end OperationBucket

structure RateLimitBudgetManager where
  order : OperationBucket
  inquiry : OperationBucket
  reconciliation : OperationBucket
  marketData : OperationBucket
  auth : OperationBucket
  globalRest : Option OperationBucket := none
  heldSellReserve : Int := 0
  heldSellReserveCapacity : Int := 0
  deriving DecidableEq

namespace RateLimitBudgetManager

/-- `_bucket`: the global bucket is not among the operation buckets. -/
def bucket (m : RateLimitBudgetManager) : BucketType → Except PyError OperationBucket
  | .order => .ok m.order
  | .inquiry => .ok m.inquiry
  | .reconciliation => .ok m.reconciliation
  | .marketData => .ok m.marketData
  | .auth => .ok m.auth
  | .restGlobal => .error (.other "KeyError")

def setBucket (m : RateLimitBudgetManager) (type : BucketType) (b : OperationBucket) :
    RateLimitBudgetManager :=
  match type with
  | .order => { m with order := b }
  | .inquiry => { m with inquiry := b }
  | .reconciliation => { m with reconciliation := b }
  | .marketData => { m with marketData := b }
  | .auth => { m with auth := b }
  | .restGlobal => m

def tryConsumeHeldSellReserve (m : RateLimitBudgetManager) (tokens : Int) :
    Bool × RateLimitBudgetManager :=
  if m.heldSellReserveCapacity ≤ 0 then (false, m)
  else if m.heldSellReserve ≥ tokens then
    (true, { m with heldSellReserve := m.heldSellReserve - tokens })
  else (false, m)

/-- The elapsed time is measured from the refill just made. -/
def refillHeldSellReserve (m : RateLimitBudgetManager) (refilled measured : Time) :
    RateLimitBudgetManager :=
  if m.heldSellReserveCapacity ≤ 0 then m
  else
    let m := { m with order := m.order.refill refilled }
    let elapsed : ℚ := (measured - m.order.refillAt) / 1000000
    if elapsed > 0 then
      let ratio : ℚ := m.heldSellReserveCapacity / max 1 m.order.capacity
      let share := elapsed * m.order.refillRate * ratio
      let tokensToAdd := share.num.tdiv share.den
      if tokensToAdd > 0 then
        { m with
          heldSellReserve := min m.heldSellReserveCapacity (m.heldSellReserve + tokensToAdd) }
      else m
    else m

/-- Tier 1, with whether the global bucket was charged. -/
def consumeGlobal (m : RateLimitBudgetManager) (tokens : Int) (skipGlobalRest : Bool)
    (now : Time) : Except PyError Bool × RateLimitBudgetManager :=
  match m.globalRest with
  | none => (.ok false, m)
  | some g =>
    if skipGlobalRest then (.ok false, m)
    else
      match g.tryConsume tokens now with
      | (true, g) => (.ok true, { m with globalRest := some g })
      | (false, g) => (.error (.budgetExhausted "global"), { m with globalRest := some g })

/-- Tier 2, which gives the global token back when it fails. -/
def consumeBucket (m : RateLimitBudgetManager) (type : BucketType) (tokens : Int)
    (globalConsumed : Bool) (consumed released : Time) :
    Except PyError Unit × RateLimitBudgetManager :=
  match m.bucket type with
  | .error e => (.error e, m)
  | .ok b =>
    match b.tryConsume tokens consumed with
    | (true, b) => (.ok (), m.setBucket type b)
    | (false, b) =>
      let m := m.setBucket type b
      (.error (.budgetExhausted type.value),
        if globalConsumed then
          { m with globalRest := m.globalRest.map (·.release tokens released) }
        else m)

/-- `consume_or_raise` with the successive readings of its clock. -/
def consumeOrRaise (m : RateLimitBudgetManager) (type : BucketType) (tokens : Int)
    (skipGlobalRest heldPositionSell : Bool) (clock : Nat → Time) :
    Except PyError Unit × RateLimitBudgetManager :=
  match m.consumeGlobal tokens skipGlobalRest (clock 0) with
  | (.error e, m) => (.error e, m)
  | (.ok globalConsumed, m) =>
    if heldPositionSell && type = .order then
      match (m.refillHeldSellReserve (clock 1) (clock 2)).tryConsumeHeldSellReserve tokens with
      | (true, m) => (.ok (), m)
      | (false, m) => m.consumeBucket type tokens globalConsumed (clock 3) (clock 4)
    else m.consumeBucket type tokens globalConsumed (clock 3) (clock 4)

/-- One poll of `wait_until_global_rest_available`. -/
def pollGlobal (m : RateLimitBudgetManager) (tokens : Int) (now : Time) :
    Bool × RateLimitBudgetManager :=
  match m.globalRest with
  | none => (true, m)
  | some g =>
    match g.tryConsume tokens now with
    | (taken, g) => (taken, { m with globalRest := some g })

/-- The half of one token's refill time, between 0.05 and 0.5 seconds. -/
def pollInterval (m : RateLimitBudgetManager) : ℚ :=
  match m.globalRest with
  | none => 0
  | some g => max (1 / 20) (min (1 / 2) (1 / 2 / max g.refillRate (1 / 100)))

def reserveReconciliationOrRaise (m : RateLimitBudgetManager) (tokens : Int) (now : Time) :
    Except PyError Unit × RateLimitBudgetManager :=
  match m.reconciliation.tryConsume tokens now with
  | (true, b) => (.ok (), { m with reconciliation := b })
  | (false, b) =>
    (.error (.budgetExhausted BucketType.reconciliation.value), { m with reconciliation := b })

end RateLimitBudgetManager

inductive CircuitState where
  | closed
  | opened
  | halfOpen
  deriving DecidableEq, Repr

/-- Times are seconds of the monotonic clock. -/
structure CircuitBreaker where
  failureThreshold : Nat := 5
  recoveryTimeout : ℚ := 30
  halfOpenMaxRetries : Nat := 1
  state : CircuitState := .closed
  failureCount : Nat := 0
  lastFailureTime : ℚ := 0
  halfOpenAttempts : Nat := 0
  deriving DecidableEq

namespace CircuitBreaker

def checkTimeout (b : CircuitBreaker) (now : ℚ) : CircuitBreaker :=
  if b.state = .opened ∧ now - b.lastFailureTime ≥ b.recoveryTimeout then
    { b with state := .halfOpen, halfOpenAttempts := 0 }
  else b

def recordSuccess (b : CircuitBreaker) : CircuitBreaker :=
  if b.state = .halfOpen then
    if b.halfOpenAttempts + 1 ≥ b.halfOpenMaxRetries then
      { b with state := .closed, failureCount := 0, halfOpenAttempts := 0 }
    else { b with halfOpenAttempts := b.halfOpenAttempts + 1 }
  else { b with failureCount := 0 }

def recordFailure (b : CircuitBreaker) (now : ℚ) : CircuitBreaker :=
  let b := { b with failureCount := b.failureCount + 1, lastFailureTime := now }
  if b.state = .halfOpen then { b with state := .opened, halfOpenAttempts := 0 }
  else if b.failureCount ≥ b.failureThreshold then { b with state := .opened }
  else b

end CircuitBreaker

end AgentTrading.Brokers
