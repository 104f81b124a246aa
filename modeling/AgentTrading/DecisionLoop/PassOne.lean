import AgentTrading.DecisionLoop.Operations

/-! The first pass of a cycle: every symbol of the universe is analysed, and what the analysis of
the general lane finds actionable is left for the second pass. -/
namespace AgentTrading.DecisionLoop
open Domain Library Execution

variable (loop : Loop)

/-- The request that the orchestrator starts from: one share at the market. -/
def cycleRequest (item : Item) (start : Nat) : Request :=
  let clientOrderId := "paper-loop-" ++ item.symbol ++ "-" ++ toString loop.cycle ++ "-" ++
    toString start
  { accountRef := loop.accountAlias
    clientOrderId := clientOrderId
    correlationId := clientOrderId
    strategyId := loop.strategyId
    symbol := item.symbol
    market := item.market
    side := if item.sourceType = "held_position" then .sell else .buy
    orderType := .market
    quantity := 1
    metadata := [("source_type", item.sourceType)] }

/-- The end of `assemble`: the request with what has been decided. -/
def assembledIntent (request : Request) (a : Assembled) : OrderIntent where
  decisionContextId := a.decisionContextId
  request :=
    { request with
      correlationId := a.correlationId
      decisionId := some a.decisionId
      decisionContextId := a.decisionContextId.map UUID.text
      orderIntentId := some a.orderIntentId
      side := if a.aiBackendInputs.decisionType ∈ ["REDUCE", "EXIT"] ∧
        lower a.side = "sell" then .sell
        else request.side }
  context := a.context
  aiBackendInputs := a.aiBackendInputs
  expectedValueAnchor := a.expectedValueAnchor

def preAiSkipped (item : Item) (reason : String) : CycleResult where
  symbol := item.symbol
  market := item.market
  sourceType := some item.sourceType
  decisionType := none
  status := "SKIPPED"
  errorPhase := some "pre_ai_gate"
  errorMessage := some reason
  stopReason := some reason

/-- The candidate is handed over before the transaction of its decision is committed. -/
def defer (item : Item) (intent : OrderIntent) (tradeDecisionId : Option UUID) :
    Code SubmitResult := do
  let now ← ofPipeline now
  await (.pendingAppend
    { cycleIndex := item.cycleIndex
      symbol := item.symbol
      market := item.market
      sourceType := item.sourceType
      intent := intent
      tradeDecisionId := tradeDecisionId
      finalTradeScore := intent.aiBackendInputs.finalTradeScore
      analysisCompletedAt := now })
  return { orderIntent := intent
           tradeDecisionId := tradeDecisionId
           phaseTrace := []
           status := "PENDING_PASS2"
           stopReason := none }

/-- `_run_one_cycle` for the general lane up to its handlers. A decision that no order is made of
goes through the execution pipeline at once, for the record of its attempt. -/
def analyse (item : Item) (start : Nat) : Code CycleResult := inTransaction do
  let verdict ← await (.preAiValidation item.symbol item.market item.sourceType
    (if loop.allowGeneralSubmit then none else some 0))
  match ← returned verdict with
  | some reason => do
    await (.recordPreAi item.symbol item.market item.sourceType reason)
    return preAiSkipped item reason
  | none => do
    let events ← await (.seededEvents item.symbol item.sourceType)
    returned events
    let assembled ← await (.assemble (cycleRequest loop item start))
    let assembled ← returned assembled
    let intent := assembledIntent (cycleRequest loop item start) assembled
    let built ← ofPipeline (buildSubmitOrderRequest intent)
    let result ← if built.isSome then defer item intent assembled.tradeDecisionId
      else waitFor (runExecutionPipeline loop.execution intent assembled.tradeDecisionId [])
    let committed ← await .commit
    returned committed
    return serializeCycleResult item.symbol item.market item.sourceType (some result)

/-- `_execute_symbol_cycle` for the general lane. The handler of a timeout cancels all tasks but its
own, among them the one that awaits the gather, which cancels what it gathers: the handler itself is
cancelled in its sleep and does not come to the `RuntimeError` behind it. -/
def executeSymbolCycle (item : Item) : Code CycleResult := do
  let start ← await .monotonic
  (analyse loop item start).handle fun e =>
    if e = timeoutError then .raise cancelledError
    else .ret (serializeCycleResult item.symbol item.market item.sourceType none
      (some (loop.execution.exceptionText e)))

/-- `_process_one` of a cycle that submits. One that is cancelled has no result. -/
def processOne (item : Item) : Code CycleResult := do
  let result ← if item.sourceType = "held_position" then
      await (.heldPositionCycle item.symbol item.market)
    else executeSymbolCycle loop item
  await (.print result)
  return result

end AgentTrading.DecisionLoop
