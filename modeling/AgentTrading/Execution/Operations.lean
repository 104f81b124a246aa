import AgentTrading.Execution.Intent
import AgentTrading.Library.History
import AgentTrading.Orders.OrderManager
import AgentTrading.Orders.SellGuard

/-! The operations of the execution pipeline: those of the order services, the repositories the
pipeline reads and writes itself, and the services it asks. A reply that may be an exception
says so; operations whose failure the source logs and forgets have no reply. -/
namespace AgentTrading.Execution
open Domain Library Orders

structure PhaseTraceEntry where
  phase : String
  status : String
  deriving DecidableEq

structure ExecutionAttemptEntity where
  executionAttemptId : UUID
  tradeDecisionId : UUID
  decisionContextId : UUID
  status : String
  startedAt : Time
  createdAt : Time
  deriving DecidableEq

/-- The arguments of `execution_attempts.update_status`. -/
structure AttemptUpdate where
  status : String
  stopPhase : String
  stopReason : String
  phaseTrace : List PhaseTraceEntry
  orderRequestId : Option UUID
  completedAt : Time
  deriving DecidableEq

/-- A validator's result, with whether the advice given by the AI conflicts with it. -/
structure Verdict where
  ruleSetVersion : String
  isBlocking : Bool
  blockingRuleCodes : List String := []
  stopReason : Option String := none
  aiConflict : Bool := false
  deriving DecidableEq

/-- The guardrail evaluation that a validator's result is stored as. -/
structure GuardrailEvaluation where
  ruleSetVersion : String
  blockingRuleCodes : List String
  decisionContextId : Option UUID
  tradeDecisionId : Option UUID
  orderRequestId : Option UUID := none
  deriving DecidableEq

/-- A quote, the price taken from it and the phases traced on the way. -/
structure QuoteResolution where
  quote : Option Quote
  referencePrice : Option ℚ
  phases : List PhaseTraceEntry := []

/-- The part of an order query that is set. -/
structure RecentOrders where
  accountId : UUID
  statuses : Option (List OrderStatus)
  createdFrom : Time
  createdTo : Option Time
  limit : Nat

inductive Op where
  | orders (op : Orders.Op)
  | executionAttemptsAdd (attempt : ExecutionAttemptEntity)
  | executionAttemptsUpdateStatus (executionAttemptId : UUID) (update : AttemptUpdate)
  | guardrailEvaluationsAdd (evaluation : GuardrailEvaluation)
  | tradeDecisionsSyncSizing (tradeDecisionId : UUID) (quantity : ℚ) (maxOrderValue : Option ℚ)
  | symbolTradeStatesLink (orderRequestId : UUID)
  | resolveQuote (symbol market : String)
  | sellGuardResolve (accountId : UUID) (symbol : String) (requestedQty : ℚ)
  | submitTimeCompliance (request : Request) (sourceType : String)
  | varThreshold (sourceType : String)
  | accountsFindOne (accountAlias : String)
  | instrumentsGetBySymbol (symbol market : String)
  | ordersList (query : RecentOrders)
  | ordersGetByClientOrderId (clientOrderId : String)
  | ordersAdd (order : OrderRequestEntity)
  | auditLogsAddCreate (order : OrderRequestEntity) (actorType actorId : String)
  | canAcceptNewEntries
  | cashLatestSnapshotAt (accountId : UUID)
  | positionsListLatest (accountId : UUID)
  | syncHealthIsStale
  | brokerOrdersListByOrderRequest (orderRequestId : UUID)
  | syncOrderPostSubmit (accountRef : String) (brokerOrderId : UUID)

abbrev Reply : Op → Type
  | .orders op => Orders.Reply op
  | .executionAttemptsAdd _ => Except PyError Unit
  | .executionAttemptsUpdateStatus .. => Except PyError Unit
  | .guardrailEvaluationsAdd _ => Unit
  | .tradeDecisionsSyncSizing .. => Unit
  | .symbolTradeStatesLink _ => Unit
  | .resolveQuote .. => Except PyError QuoteResolution
  | .sellGuardResolve .. => Except PyError SellGuard.SellAvailability
  | .submitTimeCompliance .. => Except PyError Verdict
  | .varThreshold _ => Except PyError Verdict
  | .accountsFindOne _ => Except PyError (Option UUID)
  | .instrumentsGetBySymbol .. => Except PyError (Option UUID)
  | .ordersList _ => Except PyError (List OrderRequestEntity)
  | .ordersGetByClientOrderId _ => Except PyError (Option OrderRequestEntity)
  | .ordersAdd _ => Except PyError OrderRequestEntity
  | .auditLogsAddCreate .. => Except PyError Unit
  | .canAcceptNewEntries => Bool
  | .cashLatestSnapshotAt _ => Except PyError (Option Time)
  | .positionsListLatest _ => Except PyError (List (Option ℚ × Time))
  | .syncHealthIsStale => Except PyError (Bool × Option Time)
  | .brokerOrdersListByOrderRequest _ => Except PyError (List BrokerOrderEntity)
  | .syncOrderPostSubmit .. => Except PyError Unit

abbrev Code (α : Type) := Program Op Reply PyError α

abbrev Steps := Program.History Op Reply

abbrev await (op : Op) : Code (Reply op) := Program.perform op

/-- A reply that is raised when it is an exception. -/
def returned : Except PyError α → Code α
  | .ok a => .ret a
  | .error e => .raise e

/-- A program of the order services among the operations of the pipeline. -/
abbrev ofOrders (p : Orders.Code α) : Code α := p.lift Op.orders fun _ r => r

def now : Code Time := await (.orders .now)

/-! What the services are configured with and take from the standard library. -/

structure ExecutionService where
  reconciliationService : Bool := true
  budgetManager : Bool := true
  syncService : Bool := true
  staleThresholdSeconds : Int := 900
  numerics : RealizedPnl.Numerics
  sha256 : String → String
  uuidOf : String → Option UUID
  exceptionText : PyError → String
  decimalText : ℚ → String
  timeText : Time → String

variable (svc : ExecutionService)

def generateIdempotencyKey (request : Request) : String :=
  match request.idempotencyKey.filter (· ≠ "") with
  | some key => key
  | none => svc.sha256 (String.intercalate ":" [request.clientOrderId, request.correlationId,
      request.symbol, request.market, svc.decimalText request.quantity])

/-- The entity that `create_order` stores. -/
def draftOrder (request : Request) (accountId instrumentId : UUID) (now : Time)
    (orderRequestId : UUID) : OrderRequestEntity where
  orderRequestId := orderRequestId
  accountId := accountId
  instrumentId := instrumentId
  clientOrderId := request.clientOrderId
  idempotencyKey := generateIdempotencyKey svc request
  correlationId := request.correlationId
  side := request.side
  orderType := request.orderType
  timeInForce := request.timeInForce
  requestedPrice := request.price
  requestedQuantity := request.quantity
  status := .draft
  tradeDecisionId := request.decisionId.bind svc.uuidOf
  decisionContextId := request.decisionContextId.bind svc.uuidOf
  createdAt := some now
  updatedAt := some now

def createOrder (request : Request) (actorType actorId : String) : Code OrderRequestEntity := do
  checkBudget svc.budgetManager
  if request.quantity ≤ 0 then .raise (.valueError "order quantity must be positive")
  else if request.clientOrderId = "" then
    .raise (.valueError "client_order_id, side, and order_type are required")
  else do
    let account ← await (.accountsFindOne request.accountRef)
    let accountId ← required account ("Account not found for ref=" ++
        Kis.Json.reprText request.accountRef)
    let instrument ← await (.instrumentsGetBySymbol request.symbol request.market)
    let instrumentId ← required instrument ("Instrument not found for symbol=" ++
      Kis.Json.reprText request.symbol ++ " market=" ++ Kis.Json.reprText request.market)
    let existing ← await (.ordersGetByClientOrderId request.clientOrderId)
    unclaimed existing
    let now ← now
    let id ← await (.orders .uuid4)
    let created ← await (.ordersAdd (draftOrder svc request accountId instrumentId now id))
    let created ← returned created
    let audited ← await (.auditLogsAddCreate created actorType actorId)
    returned audited
    return created
where
  /-- Without a budget manager nothing is checked. -/
  checkBudget : Bool → Code Unit
    | false => return ()
    | true => do
      let accepts ← await .canAcceptNewEntries
      if accepts then return () else .raise (.budgetExhausted "new_entry")
  required (found : Except PyError (Option UUID)) (message : String) : Code UUID := do
    match ← returned found with
    | some id => return id
    | none => .raise (.valueError message)
  unclaimed (found : Except PyError (Option OrderRequestEntity)) : Code Unit := do
    match ← returned found with
    | some _ => .raise (.other "DuplicateOrderError")
    | none => return ()

end AgentTrading.Execution
