import AgentTrading.Execution.Pipeline
import AgentTrading.Library.TimeLimit

/-! The decision loop: what a cycle hands from its analysis to its submissions, the results it
prints, and the operations it performs beside those of the execution pipeline. -/
namespace AgentTrading.DecisionLoop
open Domain Library Execution

/-- A symbol of the universe with the place of its result in the cycle. -/
structure Item where
  cycleIndex : Nat
  symbol : String
  market : String
  sourceType : String
  deriving DecidableEq

/-- An actionable decision that waits for the second pass. -/
structure Candidate where
  cycleIndex : Nat
  symbol : String
  market : String
  sourceType : String
  intent : OrderIntent
  tradeDecisionId : Option UUID
  finalTradeScore : Option ℚ
  analysisCompletedAt : Time
  deriving DecidableEq

/-- The entries of a result that come from the order it submitted. -/
structure OrderSummary where
  orderRequestId : UUID
  orderStatus : OrderStatus
  clientOrderId : String
  requestedQuantity : ℚ
  deriving DecidableEq

structure CycleResult where
  symbol : String
  market : String
  sourceType : Option String
  decisionType : Option String
  status : String
  error : Option String := none
  errorPhase : Option String := none
  errorMessage : Option String := none
  stopReason : Option String := none
  tradeDecisionId : Option UUID := none
  order : Option OrderSummary := none
  deriving DecidableEq

/-- What the orchestrator adds to a request when it assembles a decision. -/
structure Assembled where
  decisionContextId : Option UUID
  orderIntentId : String
  correlationId : String
  decisionId : String
  tradeDecisionId : Option UUID
  context : Option AssembledContext
  aiBackendInputs : AIDecisionInputs
  side : String
  expectedValueAnchor : Option Bool

inductive Op where
  | transactionEnter
  | transactionExit
  | commit
  | monotonic
  | preAiValidation (symbol market sourceType : String) (remainingGeneralBuyBudget : Option Int)
  | recordPreAi (symbol market sourceType stopReason : String)
  | seededEvents (symbol sourceType : String)
  | assemble (request : Request)
  | pendingAppend (candidate : Candidate)
  | heldPositionCycle (symbol market : String)
  | deadline
  | recordDrop (candidate : Candidate) (reason : String)
  | print (result : CycleResult)
  | pipeline (op : Execution.Op)

/-- The deadline's reply is whether it has passed. -/
abbrev Reply : Op → Type
  | .transactionEnter => Except PyError Unit
  | .transactionExit => Except PyError Unit
  | .commit => Except PyError Unit
  | .monotonic => Nat
  | .preAiValidation .. => Except PyError (Option String)
  | .recordPreAi .. => Unit
  | .seededEvents .. => Except PyError Unit
  | .assemble _ => Except PyError Assembled
  | .pendingAppend _ => Unit
  | .heldPositionCycle .. => CycleResult
  | .deadline => Bool
  | .recordDrop .. => Unit
  | .print _ => Unit
  | .pipeline op => Execution.Reply op

abbrev Code (α : Type) := Program Op Reply PyError α

abbrev Steps := Program.History Op Reply

abbrev await (op : Op) : Code (Reply op) := Program.perform op

/-- A reply that is raised when it is an exception. -/
def returned : Except PyError α → Code α
  | .ok a => .ret a
  | .error e => .raise e

@[simp] theorem returned_ok (a : α) : (returned (.ok a) : Code α) = .ret a := rfl

@[simp] theorem returned_error (e : PyError) : (returned (.error e) : Code α) = .raise e := rfl

def timeoutError : PyError := .other "TimeoutError"

/-- Not an `Exception`, so that no handler of the loop catches it. -/
def cancelledError : PyError := .other "CancelledError"

/-- A program of the execution service among the operations of the loop. -/
abbrev ofPipeline (p : Execution.Code α) : Code α := p.lift Op.pipeline fun _ r => r

/-- `asyncio.wait_for` around a program of the execution service. -/
def waitFor (p : Execution.Code α) : Code α :=
  p.limited Op.pipeline (fun _ r => r) .deadline id timeoutError

/-- `async with transaction()`: leaving it may raise as well, whatever the body has come to. -/
def inTransaction (body : Code α) : Code α := do
  let entered ← await .transactionEnter
  returned entered
  let result ← body.outcome
  let exited ← await .transactionExit
  returned exited
  returned result

structure Loop where
  execution : ExecutionService
  accountAlias : String
  strategyId : String
  cycle : Nat
  allowGeneralSubmit : Bool
  maxGeneralSubmitsThisCycle : Int

/-- `_serialize_cycle_result` outside dry runs. An exception without a text counts as none. -/
def serializeCycleResult (symbol market sourceType : String) (result : Option SubmitResult)
    (error : Option String := none) : CycleResult :=
  match error.filter (· ≠ ""), result with
  | some text, result =>
    { symbol := symbol
      market := market
      sourceType := some sourceType
      decisionType := result.map (·.orderIntent.aiBackendInputs.decisionType)
      status := "ERROR"
      error := some text }
  | none, some result =>
    { symbol := symbol
      market := market
      sourceType := some sourceType
      decisionType := some result.orderIntent.aiBackendInputs.decisionType
      status := result.status
      errorPhase := result.errorPhase
      errorMessage := result.errorMessage
      stopReason := result.stopReason
      tradeDecisionId := result.tradeDecisionId
      order := result.submitResponse.map fun order =>
        { orderRequestId := order.orderRequestId
          orderStatus := order.status
          clientOrderId := order.clientOrderId
          requestedQuantity := order.requestedQuantity } }
  | none, none =>
    { symbol := symbol
      market := market
      sourceType := some sourceType
      decisionType := none
      status := "UNKNOWN" }

@[simp] theorem serializeCycleResult_symbol (symbol market sourceType : String)
    (result : Option SubmitResult) (error : Option String) :
    (serializeCycleResult symbol market sourceType result error).symbol = symbol := by
  unfold serializeCycleResult
  split <;> rfl

@[simp] theorem serializeCycleResult_status (symbol market sourceType : String)
    (result : SubmitResult) :
    (serializeCycleResult symbol market sourceType (some result)).status = result.status := rfl

theorem serializeCycleResult_failed (symbol market sourceType text : String) :
    (serializeCycleResult symbol market sourceType none (some text)).status ∈
      ["ERROR", "UNKNOWN"] := by
  unfold serializeCycleResult
  split <;> simp_all

end AgentTrading.DecisionLoop
