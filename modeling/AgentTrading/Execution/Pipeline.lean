import AgentTrading.Execution.Operations

/-! The execution pipeline from a decision to the broker, phase by phase, each phase the
continuation of the one before it. A run ends in the first phase that stops it. -/
namespace AgentTrading.Execution
open Domain Library Repositories Sizing

/-- `status` is the outcome's name; `submitResponse` the order after a submission. -/
structure SubmitResult where
  orderIntent : OrderIntent
  tradeDecisionId : Option UUID
  phaseTrace : List PhaseTraceEntry
  status : String
  stopReason : Option String
  errorMessage : Option String := none
  errorPhase : Option String := none
  isSubmitted : Bool := false
  isSkipped : Bool := false
  submitResponse : Option OrderRequestEntity := none
  deriving DecidableEq

/-- What all phases of one run share. -/
structure Run where
  tradeDecisionId : Option UUID
  sourceType : String
  symbol : String
  actorType : String
  actorId : String
  attemptId : Option UUID

abbrev Trace := List PhaseTraceEntry

/-- `_add_phase(f"{phase}/{symbol}", status)`. -/
def Run.phase (run : Run) (phase status : String) : PhaseTraceEntry :=
  ⟨phase ++ "/" ++ run.symbol, status⟩

/-- `_finalize_attempt`: without an attempt nothing happens, and a failure is only logged. -/
def finalizeAttempt (attemptId : Option UUID) (status stopPhase stopReason : String)
    (orderRequestId : Option UUID) (trace : Trace) : Code Unit :=
  match attemptId with
  | none => return ()
  | some id => do
    let completedAt ← now
    let _ ← await (.executionAttemptsUpdateStatus id
      { status := status
        stopPhase := stopPhase
        stopReason := stopReason
        phaseTrace := trace
        orderRequestId := orderRequestId
        completedAt := completedAt })
    return ()

/-- The end of a run: the attempt is finalized with the result's stop reason and trace. -/
def conclude (run : Run) (attemptStatus stopPhase : String) (orderRequestId : Option UUID)
    (result : SubmitResult) : Code SubmitResult := do
  finalizeAttempt run.attemptId attemptStatus stopPhase (result.stopReason.getD "") orderRequestId
    result.phaseTrace
  return result

def skipped (run : Run) (intent : OrderIntent) (trace : Trace) (stopReason errorMessage : String)
    (errorPhase : Option String) : SubmitResult where
  orderIntent := intent
  tradeDecisionId := run.tradeDecisionId
  phaseTrace := trace
  status := "SKIPPED"
  stopReason := some stopReason
  errorMessage := some errorMessage
  errorPhase := errorPhase
  isSkipped := true

def failed (run : Run) (intent : OrderIntent) (trace : Trace) (stopReason errorMessage : String)
    (errorPhase : String) : SubmitResult where
  orderIntent := intent
  tradeDecisionId := run.tradeDecisionId
  phaseTrace := trace
  status := "ERROR"
  stopReason := some stopReason
  errorMessage := some errorMessage
  errorPhase := some errorPhase

def recordValidation (run : Run) (intent : OrderIntent) (ruleSetVersion : String)
    (blockingRuleCodes : List String) (orderRequestId : Option UUID) : Code Unit :=
  await (.guardrailEvaluationsAdd
    { ruleSetVersion := ruleSetVersion
      blockingRuleCodes := blockingRuleCodes
      decisionContextId := intent.decisionContextId
      tradeDecisionId := run.tradeDecisionId
      orderRequestId := orderRequestId })

variable (svc : ExecutionService) (run : Run)

/-- The name of a final order status in the result. -/
def resultStatus : OrderStatus → String
  | .submitted => "SUBMITTED"
  | .reconcileRequired => "RECONCILE_REQUIRED"
  | .rejected => "REJECTED"
  | status => "UNEXPECTED:" ++ status.value

def resultStopReason : OrderStatus → Option String
  | .submitted => some "order_submitted"
  | .reconcileRequired => some "order_reconcile_required"
  | .rejected => some "order_rejected"
  | _ => none

/-- The status an attempt ends in; an unexpected order status counts as submitted. -/
def completedStatus : OrderStatus → String
  | .reconcileRequired => "reconcile_required"
  | .rejected => "failed"
  | _ => "submitted"

def submitPhaseStatus : OrderStatus → String
  | .reconcileRequired => "reconcile"
  | .rejected => "error"
  | _ => "ok"

/-- Phase 5.5: what fails in it, or takes longer than five seconds, leaves the result as it is. -/
def postSubmitSync (request : Request) (submitted : OrderRequestEntity) : Code Unit :=
  if submitted.status = .submitted ∧ svc.syncService then
    let sync : Code Unit := do
      let brokerOrders ← await (.brokerOrdersListByOrderRequest submitted.orderRequestId)
      match ← returned brokerOrders with
      | [] => return ()
      | item :: _ => do
        let synced ← await (.syncOrderPostSubmit request.accountRef item.brokerOrderId)
        returned synced
    sync.handle fun _ => return ()
  else return ()

/-- A submission that left the order open or rejected is recorded among the guardrails. -/
def recordOutcome (intent : OrderIntent) (submitted : OrderRequestEntity) : Code Unit :=
  if submitted.status = .reconcileRequired ∨ submitted.status = .rejected then
    recordValidation run intent "broker_submit_outcome_v1"
      (resultStopReason submitted.status).toList
      (some submitted.orderRequestId)
  else return ()

def completedResult (intent : OrderIntent) (trace : Trace) (submitted : OrderRequestEntity) :
    SubmitResult where
  orderIntent := intent
  tradeDecisionId := run.tradeDecisionId
  phaseTrace := trace
  status := resultStatus submitted.status
  stopReason := resultStopReason submitted.status
  isSubmitted := submitted.status = .submitted
  isSkipped := submitted.status = .reconcileRequired ∨ submitted.status = .rejected
  submitResponse := some submitted

def afterSubmit (intent : OrderIntent) (trace : Trace) (request : Request)
    (submitted : OrderRequestEntity) : Code SubmitResult := do
  postSubmitSync svc request submitted
  recordOutcome run intent submitted
  conclude run (completedStatus submitted.status) "completed" (some submitted.orderRequestId)
    (completedResult run intent trace submitted)

def submitPhase (intent : OrderIntent) (trace : Trace) (request : Request)
    (pending : OrderRequestEntity) : Code SubmitResult := do
  let trace := trace ++ [run.phase "broker_submit" "start"]
  let outcome ← (ofOrders (Orders.submitOrderToBroker svc.reconciliationService pending
    (Orders.remoteBroker pending.orderRequestId) request.toSubmitOrderRequest run.actorType
    run.actorId)).outcome
  match outcome with
  | .error e =>
    let trace := trace ++ [run.phase "broker_submit" "error"]
    conclude run "failed" "broker_submit" (some pending.orderRequestId)
      (failed run intent trace "broker_submit_failed"
        ("submit_order_to_broker() failed: " ++ svc.exceptionText e) "order_submit")
  | .ok submitted =>
    afterSubmit svc run intent
      (trace ++ [run.phase "broker_submit" (submitPhaseStatus submitted.status)]) request submitted

/-! Phase 4: from the draft to the order that is about to be submitted. -/

def transition (order : OrderRequestEntity) (target : OrderStatus) : Code OrderRequestEntity :=
  ofOrders (Orders.transitionTo svc.reconciliationService order target
    { actorType := run.actorType, actorId := run.actorId })

def transitionFailed (intent : OrderIntent) (trace : Trace) (order : OrderRequestEntity)
    (target : String) (e : PyError) : Code SubmitResult :=
  conclude run "stopped" "transition" (some order.orderRequestId)
    (failed run intent trace "transition_failed"
      ("transition_to(" ++ target ++ ") failed: " ++ svc.exceptionText e) "transition")

def pendingPhase (intent : OrderIntent) (trace : Trace) (request : Request)
    (validated : OrderRequestEntity) : Code SubmitResult := do
  let trace := trace ++ [run.phase "transition_pending_submit" "start"]
  let outcome ← (transition svc run validated .pendingSubmit).outcome
  match outcome with
  | .error e => transitionFailed svc run intent trace validated "PENDING_SUBMIT" e
  | .ok pending => submitPhase svc run intent trace request pending

/-- How old the account's snapshots are against the threshold. -/
structure AccountSnapshotFreshness where
  isCashStale : Bool
  isPositionStale : Bool
  deriving DecidableEq

def AccountSnapshotFreshness.isStale (f : AccountSnapshotFreshness) : Bool :=
  f.isCashStale || f.isPositionStale

def olderThan (seconds : Int) (now stamp : Time) : Bool := seconds * 1000000 < now - stamp

/-- `_check_account_snapshot_freshness`: only rows of positions that are held count. -/
def checkAccountSnapshotFreshness (accountId : UUID) : Code AccountSnapshotFreshness := do
  let now ← now
  let cash ← await (.cashLatestSnapshotAt accountId)
  match ← returned cash with
  | none => return ⟨true, true⟩
  | some cashAt => do
    let positions ← await (.positionsListLatest accountId)
    let positions ← returned positions
    let held := positions.filterMap fun row => if row.1.any (0 < ·) then some row.2 else none
    return ⟨olderThan svc.staleThresholdSeconds now cashAt,
      held.max?.any (olderThan svc.staleThresholdSeconds now)⟩

def flag (b : Bool) : String := if b then "True" else "False"

/-- Phase 4c: the message of stale snapshots, if there are any. -/
def staleness (intent : OrderIntent) : Code (Option (String × String)) :=
  match intent.accountId with
  | some accountId => do
    let freshness ← checkAccountSnapshotFreshness svc accountId
    return if freshness.isStale then some ("stale_snapshot_account",
      "Account-level snapshot stale: account_id=" ++ UUID.text accountId ++
        ", cash_stale=" ++ flag freshness.isCashStale ++ ", pos_stale=" ++
        flag freshness.isPositionStale ++ ", threshold=" ++
          toString svc.staleThresholdSeconds ++ "s")
    else none
  | none => do
    let health ← await .syncHealthIsStale
    let (isStale, lastSuccessfulRunAt) ← returned health
    return if isStale then some ("stale_snapshot_run",
      "Snapshot sync is stale (run-level fallback): last successful run at " ++
        lastSuccessfulRunAt.elim "None" svc.timeText ++ ", threshold=" ++
        toString svc.staleThresholdSeconds ++ "s")
    else none

/-- Selling a held position to reduce risk goes through on stale snapshots. -/
def staleGuardPhase (intent : OrderIntent) (trace : Trace) (request : Request)
    (validated : OrderRequestEntity) : Code SubmitResult := do
  let trace := trace ++ [run.phase "stale_snapshot_guard" "start"]
  match ← staleness svc intent with
  | none => pendingPhase svc run intent trace request validated
  | some (code, message) =>
    if isHeldPositionSellPath run.sourceType intent.aiBackendInputs.decisionType
        intent.request.side then
      pendingPhase svc run intent trace request validated
    else do
      recordValidation run intent "stale_snapshot_guard_v1" [code] (some validated.orderRequestId)
      let trace := trace ++ [run.phase "stale_snapshot_guard" "skipped"]
      conclude run "stopped" "stale_snapshot_guard" (some validated.orderRequestId)
        (skipped run intent trace "stale_snapshot" message (some "stale_snapshot"))

/-- Phases 3 and 4a. -/
def createPhase (intent : OrderIntent) (trace : Trace) (request : Request) : Code SubmitResult := do
  let trace := trace ++ [run.phase "order_create" "start"]
  let created ← (createOrder svc request run.actorType run.actorId).outcome
  match created with
  | .error e =>
    let trace := trace ++ [run.phase "order_create" "error"]
    conclude run "stopped" "order_create" none (failed run intent trace "order_create_failed"
      ("create_order() failed: " ++ svc.exceptionText e) "order_create")
  | .ok order => do
    let trace := trace ++ [run.phase "transition_validated" "start"]
    let outcome ← (transition svc run order .validated).outcome
    match outcome with
    | .error e => transitionFailed svc run intent trace order "VALIDATED" e
    | .ok validated => do
      await (.symbolTradeStatesLink validated.orderRequestId)
      staleGuardPhase svc run intent trace request validated

/-! Phase 2: the guards before the order exists. -/

def activeBuyStatuses : List OrderStatus :=
  [.draft, .validated, .pendingSubmit, .submitted, .acknowledged, .partiallyFilled, .filled,
    .reconcileRequired]

def buyDuplicateCooldown : Int := 15 * microsPerMinute

/-- The account of the decision's context, or else the one the request names. -/
def resolveAccount (intent : OrderIntent) : Code (Option UUID) :=
  match intent.accountId with
  | some id => return some id
  | none => do
    let account ← await (.accountsFindOne intent.request.accountRef)
    returned account

def hasRecentActiveBuyOrder (accountId : UUID) (symbol market : String) (createdAfter : Time) :
    Code Bool := do
  let instrument ← await (.instrumentsGetBySymbol symbol market)
  match ← returned instrument with
  | none => return false
  | some instrumentId => do
    let orders ← await (.ordersList ⟨accountId, some activeBuyStatuses, createdAfter, none, 100⟩)
    let orders ← returned orders
    return orders.any fun order => order.instrumentId = instrumentId ∧ order.side = .buy

/-- `_has_active_reconciliation_lock`: the lock of the account, symbol and side. -/
def hasActiveReconciliationLock (accountId : UUID) (symbol : String) (side : OrderSide) :
    Code Bool :=
  if svc.reconciliationService then
    ofOrders (Reconciliation.isBlocked ⟨accountId, none, some symbol, some side.value⟩)
  else return false

/-- Phase 2.5: whether a recent buy of the symbol stands in the way. A reconciliation lock goes
before the guard, so that the order manager meets it. -/
def buyDuplicate (intent : OrderIntent) : Code Bool :=
  if intent.request.side = .buy then do
    match ← resolveAccount intent with
    | none => return false
    | some accountId => do
      let locked ← hasActiveReconciliationLock svc accountId intent.request.symbol
          intent.request.side
      if locked then return false
      else do
        let now ← now
        hasRecentActiveBuyOrder accountId intent.request.symbol intent.request.market
          (now - buyDuplicateCooldown)
  else return false

def buyDuplicatePhase (intent : OrderIntent) (trace : Trace) (request : Request) :
    Code SubmitResult := do
  let duplicate ← buyDuplicate svc intent
  if duplicate then do
    recordValidation run intent "buy_duplicate_guard_v1" ["recent_active_buy_order"] none
    let trace := trace ++ [run.phase "buy_duplicate_guard" "skipped"]
    conclude run "stopped" "buy_duplicate_guard" none
      (skipped run intent trace "recent_active_buy_order" "recent_active_buy_order"
        (some "buy_duplicate_guard"))
  else createPhase svc run intent trace request

def blockedBy (intent : OrderIntent) (trace : Trace) (phase : String) (stopReason : String) :
    Code SubmitResult :=
  conclude run "stopped" phase none (skipped run intent
    (trace ++ [run.phase phase "skipped"]) stopReason stopReason (some phase))

/-- Phase 2.2: the value at risk. -/
def varPhase (intent : OrderIntent) (trace : Trace) (request : Request) : Code SubmitResult := do
  let verdict ← await (.varThreshold run.sourceType)
  let verdict ← returned verdict
  if verdict.isBlocking then do
    recordValidation run intent verdict.ruleSetVersion verdict.blockingRuleCodes none
    blockedBy run intent trace "risk_validator" (orText verdict.stopReason "risk_validator_blocked")
  else buyDuplicatePhase svc run intent trace request

/-- A verdict is recorded when it blocks or when the AI's advice conflicts with it. -/
def recordVerdict (intent : OrderIntent) (verdict : Verdict) : Code Unit :=
  if verdict.isBlocking || verdict.aiConflict then
    recordValidation run intent verdict.ruleSetVersion verdict.blockingRuleCodes none
  else return ()

/-- Phase 2.1: compliance. -/
def compliancePhase (intent : OrderIntent) (trace : Trace) (request : Request) :
    Code SubmitResult := do
  let trace := trace ++ [run.phase "translation" "ok"]
  let verdict ← await (.submitTimeCompliance request run.sourceType)
  let verdict ← returned verdict
  recordVerdict run intent verdict
  if verdict.isBlocking then
    blockedBy run intent trace "compliance_validator"
      (orText verdict.stopReason "compliance_blocked")
  else varPhase svc run intent trace request

def reverseSellStatuses : List OrderStatus :=
  [.draft, .validated, .pendingSubmit, .submitted, .acknowledged, .partiallyFilled, .filled,
    .reconcileRequired]

def reverseCooldown : Int := 20 * microsPerMinute

/-- The float `0.6`. -/
def riskOffScore : ℚ := 5404319552844595 / 9007199254740992

/-- The price of a probe: the first of these that is neither absent nor zero. -/
def probePrice (intent : OrderIntent) (referencePrice : Option ℚ) : Option ℚ :=
  orNumber intent.request.price (orNumber referencePrice
    (orNumber intent.request.priceBandUpper intent.request.priceBandLower))

/-- A market buy of one share in high volatility when the risk is off, or a buy worth less than
the minimum without a high edge. -/
def probeChurn (intent : OrderIntent) (sourceType : String) (referencePrice : Option ℚ) : Bool :=
  let ai := intent.aiBackendInputs
  let value := (configured (probePrice intent referencePrice)).map
    fun price => svc.numerics.mul price intent.request.quantity
  let highEdgeException := (sourceType = "core" || sourceType = "event_overlay") &&
    ai.edgeAfterCostBps.any (35 ≤ ·)
  let signal := intent.context.bind (·.signalFeatureSnapshot)
  let highVolatility := (signal.bind (·.atr14Pct)).any (3 ≤ ·) ||
    (signal.bind (·.volatility20dPct)).any (4 ≤ ·)
  let riskOff := ai.riskOpinion ≠ "allow" || riskOffScore ≤ ai.riskScore
  (intent.request.orderType = .market && highVolatility && riskOff) ||
    (value.any (· < 500000) && !highEdgeException)

/-- The recent sells of the instrument held, or of any when no position is known. -/
def recentSells (intent : OrderIntent) : Code Nat := do
  match ← resolveAccount intent with
  | none => return 0
  | some accountId => do
    let first ← now
    let last ← now
    let orders ← await (.ordersList ⟨accountId, none, first - reverseCooldown, some last, 50⟩)
    let orders ← returned orders
    return (orders.filter fun order => concerned order ∧ order.side = .sell ∧
      order.status ∈ reverseSellStatuses).length
where
  concerned (order : OrderRequestEntity) : Bool :=
    intent.position.all fun position => order.instrumentId = position.instrumentId

/-- `_classify_single_share_probe_churn_policy`: the reason that blocks a buy of one share. -/
def probeBlock (intent : OrderIntent) (referencePrice : Option ℚ) : Code (Option String) :=
  if intent.request.quantity ≠ 1 ∨ run.sourceType = "manual" ∨
      (intent.position.bind (·.quantity)).any (0 < ·) then return none
  else if run.sourceType = "reconciliation_overlay" then
    return some "overlay_single_share_buy_blocked"
  else do
    let sells ← recentSells intent
    return if 0 < sells then some "reverse_trade_single_share_blocked"
      else if probeChurn svc intent run.sourceType referencePrice then
        some "probe_churn_single_share_blocked"
      else none

/-- Phase 2.4, for buys only. -/
def probePhase (intent : OrderIntent) (trace : Trace) (referencePrice : Option ℚ)
    (request : Request) : Code SubmitResult :=
  if intent.request.side = .buy then do
    match ← probeBlock svc run intent referencePrice with
    | none => compliancePhase svc run intent trace request
    | some reason => do
      recordValidation run intent "execution_probe_churn_guard_v1" [reason] none
      blockedBy run intent trace "probe_churn_guard" reason
  else compliancePhase svc run intent trace request

/-- `build_submit_order_request_from_decision`: only a request reads the clock. -/
def buildSubmitOrderRequest (intent : OrderIntent) : Code (Option Request) :=
  if translatable intent then
    match intent.decisionContextId with
    | none => return none
    | some id => do
      let now ← now
      return some (translate intent id now)
  else return none

/-- Phase 2. -/
def translationPhase (intent : OrderIntent) (trace : Trace) (referencePrice : Option ℚ) :
    Code SubmitResult := do
  match ← buildSubmitOrderRequest intent with
  | some request => probePhase svc run intent trace referencePrice request
  | none =>
    let decisionType := intent.aiBackendInputs.decisionType
    conclude run "non_trade" "translation" none
      (skipped run intent (trace ++ [run.phase "translation" "skipped"])
        (if decisionType = "HOLD" then "decision_hold" else "decision_watch")
        ("Decision type '" ++ decisionType ++ "' produced no order request") none)

/-- What is sold already stands in the way of a sell; a guard that fails lets it through. -/
def sellGuard (intent : OrderIntent) : Code (Option SellGuard.SellAvailability) :=
  match intent.accountId with
  | some accountId =>
    if intent.request.side = .sell ∧ 0 < intent.request.quantity then do
      match ← await (.sellGuardResolve accountId intent.request.symbol intent.request.quantity) with
      | .ok availability => return if availability.isBlocked then some availability else none
      | .error _ => return none
    else return none
  | none => return none

/-- Phase 1.5+. -/
def sellGuardPhase (intent : OrderIntent) (trace : Trace) (referencePrice : Option ℚ) :
    Code SubmitResult := do
  let trace := trace ++ [run.phase "sell_guard" "start"]
  match ← sellGuard intent with
  | none => translationPhase svc run intent trace referencePrice
  | some availability => do
    recordValidation run intent "sell_guard_v1" ["sell_guard_blocked"] none
    conclude run "stopped" "sell_guard" none
      (skipped run intent (trace ++ [run.phase "sell_guard" "skipped"]) "sell_guard_blocked"
        (orText availability.blockingReason "Sell guard blocked duplicate sell") none)

def calculateMaxOrderValue (price : Option ℚ) (quantity : ℚ) : Option ℚ :=
  price.map fun price => max (svc.numerics.mul price quantity) 0

/-- `_sync_trade_decision_execution_sizing`. -/
def syncExecutionSizing (intent : OrderIntent) (quantity : ℚ) : Code Unit :=
  match run.tradeDecisionId with
  | none => return ()
  | some id => await (.tradeDecisionsSyncSizing id quantity
      (calculateMaxOrderValue svc intent.request.price quantity))

/-- The rest of phase 1.6, when the policy does not block. -/
def sizedPhase (intent : OrderIntent) (trace : Trace) (referencePrice : Option ℚ) :
    Code SubmitResult := do
  let trace := trace ++ [run.phase "execution_liquidity" "ok"]
  syncExecutionSizing svc run intent intent.request.quantity
  sellGuardPhase svc run intent (trace ++ [run.phase "sizing" "ok"]) referencePrice

/-- Phase 1.6. -/
def liquidityPhase (intent : OrderIntent) (trace : Trace) (quote : Option Quote)
    (referencePrice : Option ℚ) (sizing : SizingResult) : Code SubmitResult := do
  let trace := trace ++ [run.phase "execution_liquidity" "start"]
  match classifyBuyExecutionLiquidityPolicy intent run.sourceType quote referencePrice sizing with
  | (.block, reason, _) => do
    recordValidation run intent "buy_execution_liquidity_v1"
      ["low_liquidity_execution_blocked"] none
    conclude run "stopped" "execution_liquidity" none
      (skipped run intent (trace ++ [run.phase "execution_liquidity" "skipped"])
        "low_liquidity_execution_blocked" reason (some "execution_liquidity"))
  | (.forceLimit, _, some metadata) =>
    match metadata.limitPrice with
    | some price => sizedPhase svc run (forceLimit intent metadata price) trace referencePrice
    | none => sizedPhase svc run intent trace referencePrice
  | _ => sizedPhase svc run intent trace referencePrice

/-- A sell that sizing leaves nothing of goes on with the quantity asked for, unless it is one of
a held position. -/
def effectiveQuantity (intent : OrderIntent) (isHpSell : Bool) (sizing : SizingResult) : ℚ :=
  if sizing.quantity ≤ 0 ∧ intent.request.side = .sell ∧ isHpSell = false ∧
      0 < intent.request.quantity then intent.request.quantity
  else sizing.quantity

/-- Phase 1.5, once the reference price is settled. -/
def sizingPhase (intent : OrderIntent) (trace : Trace) (isHpSell : Bool) (quote : Option Quote)
    (referencePrice : Option ℚ) : Code SubmitResult := do
  let inputs ← returned (buildSizingInputs svc.numerics intent quote referencePrice)
  let sizing := calculateSizing svc.numerics inputs
  let effectiveQty := effectiveQuantity intent isHpSell sizing
  if effectiveQty ≤ 0 then do
    syncExecutionSizing svc run intent 0
    let (attemptStatus, stopReason, errorMessage) := resolveZeroQuantityOutcome intent sizing
    conclude run attemptStatus "sizing" none
      (skipped run intent (trace ++ [run.phase "sizing" "skipped"]) stopReason errorMessage
        (some "sizing"))
  else liquidityPhase svc run (intent.withQuantity effectiveQty) trace quote referencePrice sizing

/-- Without any price a market buy cannot be sized. -/
def referencePhase (intent : OrderIntent) (trace : Trace) (isHpSell : Bool) (quote : Option Quote)
    (referencePrice : Option ℚ) : Code SubmitResult :=
  let trace := trace ++ [run.phase "sizing" "start"]
  if intent.request.side = .buy ∧ intent.request.price = none ∧
      intent.request.orderType = .market then
    match resolveMarketBuyReferencePrice svc.numerics intent referencePrice with
    | none =>
      conclude run "stopped" "sizing" none
        (skipped run intent (trace ++ [run.phase "sizing" "skipped_missing_reference_price"])
          "missing_reference_price_for_market_buy" "missing_reference_price_for_market_buy"
          (some "sizing"))
    | some price => sizingPhase svc run intent trace isHpSell quote (some price)
  else sizingPhase svc run intent trace isHpSell quote referencePrice

/-- Selling a held position asks for no quote, and neither does a request that has a price. -/
def quotePhase (intent : OrderIntent) (trace : Trace) : Code SubmitResult :=
  let isHpSell := isHeldPositionSellPath run.sourceType intent.aiBackendInputs.decisionType
    intent.request.side
  if isHpSell = false ∧ intent.request.price = none then do
    let resolution ← await (.resolveQuote intent.request.symbol intent.request.market)
    let resolution ← returned resolution
    referencePhase svc run intent (trace ++ resolution.phases) isHpSell resolution.quote
      resolution.referencePrice
  else referencePhase svc run intent trace isHpSell none none

/-- The attempt is only recorded for a decision in a context, and a failure is only logged. -/
def createAttempt (intent : OrderIntent) (tradeDecisionId : Option UUID) : Code (Option UUID) :=
  match tradeDecisionId, intent.decisionContextId with
  | some tradeDecisionId, some decisionContextId => do
    let now ← now
    let id ← await (.orders .uuid4)
    let added ← await (.executionAttemptsAdd
      { executionAttemptId := id
        tradeDecisionId := tradeDecisionId
        decisionContextId := decisionContextId
        status := "running"
        startedAt := now
        createdAt := now })
    return match added with
      | .ok _ => some id
      | .error _ => none
  | _, _ => return none

def runExecutionPipeline (intent : OrderIntent) (tradeDecisionId : Option UUID) (trace : Trace)
    (actorType : String := "system") (actorId : String := "decision_orchestrator") :
    Code SubmitResult := do
  let attemptId ← createAttempt intent tradeDecisionId
  quotePhase svc
    { tradeDecisionId := tradeDecisionId
      sourceType := intent.sourceType
      symbol := intent.request.symbol
      actorType := actorType
      actorId := actorId
      attemptId := attemptId } intent trace

end AgentTrading.Execution
