import AgentTrading.Domain.Entities

/-! The order state machine: which status may follow which, and the three checks made
before a status is written. -/
namespace AgentTrading.Orders
open Domain

/-- `_ALLOWED_TRANSITIONS`; a status without an entry has none. -/
def allowedTransitions : OrderStatus → List OrderStatus
  | .draft => [.validated]
  | .validated => [.pendingSubmit]
  | .pendingSubmit => [.submitted, .reconcileRequired, .rejected, .expired]
  | .submitted => [.acknowledged, .reconcileRequired, .expired]
  | .acknowledged =>
    [.partiallyFilled, .filled, .cancelled, .rejected, .reconcileRequired, .expired]
  | .partiallyFilled => [.filled, .cancelPending, .reconcileRequired, .expired]
  | .cancelPending => [.cancelled, .reconcileRequired]
  | .reconcileRequired => [.submitted, .acknowledged, .cancelled, .rejected, .expired]
  | .expired => [.filled, .partiallyFilled, .reconcileRequired]
  | .filled => []
  | .cancelled => []
  | .rejected => []

def terminalStates : List OrderStatus := [.filled, .cancelled, .rejected, .expired]

def authoritativeReflectionTargets : List OrderStatus :=
  [.filled, .acknowledged, .cancelled, .rejected, .expired]

def manualResolveTargets : List OrderStatus := [.filled, .cancelled, .rejected, .expired]

def validateTransition (orderRequestId : UUID) (current target : OrderStatus) :
    Except PyError Unit :=
  if target ∈ allowedTransitions current then .ok ()
  else if current ∈ terminalStates then
    .error (.invalidStateTransition orderRequestId current target
      (some (current.value ++ " is a terminal state")))
  else .error (.invalidStateTransition orderRequestId current target none)

def validateAuthoritativeTarget (target : OrderStatus) : Except PyError Unit :=
  if target ∈ authoritativeReflectionTargets then .ok ()
  else .error (.valueError (target.value ++ " is not a valid authoritative reflection target. " ++
    "Allowed: " ++ String.intercalate ", " (authoritativeReflectionTargets.map (·.value))))

theorem validateTransition_ok (orderRequestId : UUID) (current target : OrderStatus) :
    validateTransition orderRequestId current target = .ok () ↔
      target ∈ allowedTransitions current := by
  unfold validateTransition
  by_cases h : target ∈ allowedTransitions current
  · simp only [h, if_true]
  · simp only [h, if_false, iff_false]
    split <;> exact fun h => by cases h

end AgentTrading.Orders
