import Mathlib.Data.Rat.Defs
import AgentTrading.Domain.Enums
import AgentTrading.Domain.Text

/-! Records the order services read and store. Identifiers are the integer of the UUID,
times are microseconds since the epoch, and decimals are exact rationals. -/
namespace AgentTrading.Domain

abbrev UUID := Nat

abbrev Time := Int

/-- The canonical text of an identifier. -/
def UUID.text (u : UUID) : String :=
  let d := hex 32 u
  let part (i n : Nat) : String := String.ofList ((d.drop i).take n)
  String.intercalate "-" [part 0 8, part 8 4, part 12 4, part 16 4, part 20 12]

def microsPerMinute : Int := 60000000

structure OrderRequestEntity where
  orderRequestId : UUID
  accountId : UUID
  instrumentId : UUID
  clientOrderId : String
  idempotencyKey : String
  correlationId : String
  side : OrderSide
  orderType : OrderType
  requestedQuantity : ℚ
  status : OrderStatus
  tradeDecisionId : Option UUID := none
  decisionContextId : Option UUID := none
  requestedPrice : Option ℚ := none
  timeInForce : TimeInForce := .day
  statusReasonCode : Option String := none
  statusReasonMessage : Option String := none
  submittedAt : Option Time := none
  createdAt : Option Time := none
  updatedAt : Option Time := none
  version : Nat := 1
  deriving DecidableEq

structure BrokerOrderEntity where
  brokerOrderId : UUID
  orderRequestId : UUID
  brokerName : String
  brokerStatus : String
  brokerNativeOrderId : Option String := none
  lastSyncedAt : Option Time := none
  createdAt : Option Time := none
  updatedAt : Option Time := none
  deriving DecidableEq

structure FillEventEntity where
  fillEventId : UUID
  brokerOrderId : UUID
  fillTimestamp : Time
  fillPrice : ℚ
  fillQuantity : ℚ
  sourceChannel : String
  brokerFillId : Option String := none
  fillFee : Option ℚ := none
  fillTax : Option ℚ := none
  feeTaxSource : Option String := none
  createdAt : Option Time := none
  deriving DecidableEq

structure OrderStateEventEntity where
  orderStateEventId : UUID
  orderRequestId : UUID
  newStatus : OrderStatus
  eventSource : EventSource
  eventTimestamp : Time
  ingestedAt : Time
  previousStatus : Option OrderStatus := none
  reasonCode : Option String := none
  correlationId : Option String := none
  deriving DecidableEq

/-- An audit entry of a status change, with the two entities its JSON columns render. -/
structure AuditLogEntity where
  auditLogId : UUID
  actorType : String
  actorId : String
  action : String
  targetEntityType : String
  targetEntityId : String
  createdAt : Time
  before : OrderRequestEntity
  after : OrderRequestEntity
  correlationId : Option String
  fromStatus : String
  toStatus : String
  deriving DecidableEq

structure OrderSubmissionAttemptEntity where
  attemptId : UUID
  orderRequestId : UUID
  attemptNumber : Nat
  submittedAt : Time
  brokerName : Option String := none
  accepted : Bool := false
  brokerNativeOrderId : Option String := none
  brokerStatus : Option String := none
  rawCode : Option String := none
  rawMessage : Option String := none
  errorType : Option String := none
  retryable : Option Bool := none
  deriving DecidableEq

structure StrategyEntity where
  strategyId : UUID
  clientId : UUID
  strategyCode : String
  deriving DecidableEq

structure AccountEntity where
  brokerAccountId : UUID
  deriving DecidableEq

structure BrokerAccountEntity where
  brokerAccountId : UUID
  brokerName : String
  accountRef : String
  deriving DecidableEq

structure ReconciliationRunEntity where
  reconciliationRunId : UUID
  accountId : UUID
  triggerType : String
  status : RunStatus
  startedAt : Time
  mismatchCount : Nat := 0
  completedAt : Option Time := none
  createdAt : Option Time := none
  deriving DecidableEq

structure ReconciliationOrderLinkEntity where
  reconciliationRunId : UUID
  orderRequestId : UUID
  mismatchType : String
  triggerType : String
  linkedAt : Time
  deriving DecidableEq

/-- `metadata` maps each key to the text of its value. -/
structure SubmitOrderRequest where
  accountRef : String
  clientOrderId : String
  correlationId : String
  strategyId : String
  symbol : String
  market : String
  side : OrderSide
  orderType : OrderType
  quantity : ℚ
  timeInForce : TimeInForce := .day
  price : Option ℚ := none
  priceBandLower : Option ℚ := none
  priceBandUpper : Option ℚ := none
  maxSlippageBps : Option Int := none
  allowPartialFill : Bool := true
  metadata : List (String × String) := []
  deriving DecidableEq

structure SubmitOrderResult where
  accepted : Bool
  brokerName : BrokerName
  clientOrderId : String
  brokerOrderId : Option String
  brokerStatus : OrderStatus
  ackTimestamp : Option Time
  rawCode : Option String := none
  rawMessage : Option String := none
  idempotencyKey : Option String := none
  normalizedStatus : Option OrderStatus := none
  exchangeTimestamp : Option Time := none
  rawPayloadUri : Option String := none
  uncertain : Bool := false
  requiresReconciliation : Bool := false
  deriving DecidableEq

/-- `className` is the name of the exception's class among the subclasses. -/
structure BrokerError where
  className : String := "BrokerError"
  brokerName : BrokerName
  errorType : BrokerErrorType
  retryable : Bool
  rawCode : Option String := none
  rawMessage : Option String := none
  requiresReconciliation : Bool := false
  deriving DecidableEq

/-- `str(exc)`. -/
def BrokerError.text (e : BrokerError) : String :=
  String.intercalate " | " ([e.brokerName.value, e.errorType.value] ++
    (e.rawCode.filter (· ≠ "")).toList ++ (e.rawMessage.filter (· ≠ "")).toList)

/-- The exceptions that cross the modelled functions. -/
inductive PyError where
  | invalidStateTransition (orderRequestId : UUID) (current target : OrderStatus)
      (reason : Option String)
  | versionConflict (orderRequestId : UUID) (expectedVersion actualVersion : Nat)
  | valueError (message : String)
  | keyError (key : UUID)
  | broker (error : BrokerError)
  | budgetExhausted (bucket : String)
  | unboundLocal (name : String)
  | other (className : String)
  deriving DecidableEq

/-- `type(exc).__name__`. -/
def PyError.className : PyError → String
  | invalidStateTransition .. => "InvalidStateTransitionError"
  | versionConflict .. => "VersionConflictError"
  | valueError _ => "ValueError"
  | keyError _ => "KeyError"
  | broker e => e.className
  | budgetExhausted _ => "BudgetExhaustedError"
  | unboundLocal _ => "UnboundLocalError"
  | other c => c

end AgentTrading.Domain
