import AgentTrading.Domain.Entities
import AgentTrading.Kis.Numerals
import AgentTrading.Sizing.Engine

/-! An order intent and what the execution pipeline decides from it without asking anybody: the
sizing inputs, the liquidity policy, the price of a market buy and whether an order is made of
the decision at all. -/
namespace AgentTrading.Execution
open Domain Kis RealizedPnl Sizing

structure Quote where
  symbol : String
  market : String
  bid : Option ℚ
  ask : Option ℚ
  last : Option ℚ
  asOf : Time
  accumulatedVolume : Option ℚ := none
  accumulatedTurnover : Option ℚ := none
  deriving DecidableEq

/-- What the liquidity policy leaves in the metadata of a request. -/
structure LiquidityMetadata where
  action : String
  sourceType : String
  reason : String
  priceSource : Option String := none
  limitPrice : Option ℚ := none
  accumulatedVolume : Option ℚ := none
  accumulatedTurnover : Option ℚ := none
  deriving DecidableEq

/-- A request with the identifiers that only the creation of its order reads, and with the entry
of its metadata that a forced limit order has. -/
structure Request extends SubmitOrderRequest where
  idempotencyKey : Option String := none
  decisionId : Option String := none
  decisionContextId : Option String := none
  orderIntentId : Option String := none
  executionLiquidityPolicy : Option LiquidityMetadata := none
  deriving DecidableEq

/-- `riskScore` is the exact value of the float. -/
structure AIDecisionInputs where
  decisionType : String := "HOLD"
  sizingHint : SizingHint := {}
  riskOpinion : String := "allow"
  riskScore : ℚ := 0
  expectedReturnBps : Option ℚ := none
  expectedDownsideBps : Option ℚ := none
  netExpectedValueBps : Option ℚ := none
  finalTradeScore : Option ℚ := none
  minimumRequiredEdgeBps : Option ℚ := none
  edgeAfterCostBps : Option ℚ := none
  estimatedRoundTripCostBps : Option ℚ := none
  slippageBufferBps : Option ℚ := none
  expectedValueGatePassed : Bool := false
  evGateNearMissOverrideApplied : Bool := false
  deriving DecidableEq

structure DecisionContext where
  decisionContextId : UUID
  accountId : UUID
  deriving DecidableEq

structure PositionSnapshot where
  instrumentId : UUID
  quantity : Option ℚ
  averagePrice : Option ℚ := none
  marketPrice : Option ℚ := none
  deriving DecidableEq

structure CashBalanceSnapshot where
  availableCash : Option ℚ
  orderableAmount : Option ℚ := none
  totalAsset : Option ℚ := none
  deriving DecidableEq

structure SignalFeatureSnapshot where
  atr14Pct : Option ℚ := none
  volatility20dPct : Option ℚ := none
  averageVolume20d : Option ℚ := none
  deriving DecidableEq

/-- The numbers configured under the keys `risk`, `execution` and the older flat keys. -/
structure SizingConfig where
  riskMaxSinglePositionPct : Option ℚ := none
  maxPositionSize : Option ℚ := none
  riskMinCashBufferPct : Option ℚ := none
  minCashBufferPct : Option ℚ := none
  executionMaxOrderValue : Option ℚ := none
  maxOrderValue : Option ℚ := none
  maxIntradayVolumeParticipationPct : Option ℚ := none
  maxIntradayTurnoverParticipationPct : Option ℚ := none
  maxAverageDailyVolumeParticipationPct : Option ℚ := none
  minOrderQty : Option ℚ := none
  maxOrderQty : Option ℚ := none
  deriving DecidableEq

/-- `riskLimitNav` is the `nav` of a risk limit snapshot, `eligibilityReasons` those of the
deterministic trigger. -/
structure AssembledContext where
  decisionContext : Option DecisionContext := none
  config : SizingConfig := {}
  positionSnapshot : Option PositionSnapshot := none
  cashBalanceSnapshot : Option CashBalanceSnapshot := none
  riskLimitNav : Option ℚ := none
  signalFeatureSnapshot : Option SignalFeatureSnapshot := none
  eligibilityReasons : List String := []
  sourceType : String := "core"
  deriving DecidableEq

/-- `expectedValueAnchor` is `anchor_passed` of the anchor in the request's metadata, when there is
one. -/
structure OrderIntent where
  decisionContextId : Option UUID
  request : Request
  context : Option AssembledContext := some {}
  aiBackendInputs : AIDecisionInputs := {}
  expectedValueAnchor : Option Bool := none
  deriving DecidableEq

namespace OrderIntent

def accountId (intent : OrderIntent) : Option UUID :=
  (intent.context.bind (·.decisionContext)).map (·.accountId)

def position (intent : OrderIntent) : Option PositionSnapshot :=
  intent.context.bind (·.positionSnapshot)

/-- The source of the context, or without one that of the request's metadata. -/
def sourceType (intent : OrderIntent) : String :=
  match intent.context with
  | some context => context.sourceType
  | none => orText (intent.request.metadata.lookup "source_type") "core"

def withQuantity (intent : OrderIntent) (quantity : ℚ) : OrderIntent :=
  { intent with request := { intent.request with quantity := quantity } }

@[simp] theorem withQuantity_accountId (intent : OrderIntent) (quantity : ℚ) :
    (intent.withQuantity quantity).accountId = intent.accountId := rfl

@[simp] theorem withQuantity_side (intent : OrderIntent) (quantity : ℚ) :
    (intent.withQuantity quantity).request.side = intent.request.side := rfl

@[simp] theorem withQuantity_quantity (intent : OrderIntent) (quantity : ℚ) :
    (intent.withQuantity quantity).request.quantity = quantity := rfl

end OrderIntent

/-- `(s or "").strip().lower()`. -/
def normalizedText (s : String) : String := lower (String.ofList (strip s.toList))

def isHeldPositionSellPath (sourceType decisionType : String) (side : OrderSide) : Bool :=
  normalizedText sourceType = "held_position" &&
    (normalizedText decisionType = "reduce" || normalizedText decisionType = "exit") &&
    side = .sell

/-- `a or b` of two numbers: a zero counts as absent. -/
def orNumber (a b : Option ℚ) : Option ℚ := (a.filter (· ≠ 0)).or b

/-- The older key may hold a ratio instead of a percentage. -/
def maxSinglePositionPct (n : Numerics) (config : SizingConfig) : Option ℚ :=
  match config.riskMaxSinglePositionPct with
  | some pct => some pct
  | none => config.maxPositionSize.map fun x => if 0 < x ∧ x ≤ 1 then n.mul x 100 else x

/-- `_build_sizing_inputs`; an intent without a context has no attribute to read. -/
def buildSizingInputs (n : Numerics) (intent : OrderIntent) (quote : Option Quote)
    (referencePrice : Option ℚ) : Except PyError SizingInputs :=
  match intent.context with
  | none => .error (.other "AttributeError")
  | some ctx => .ok
    { decisionType := intent.aiBackendInputs.decisionType
      side := intent.request.side
      sourceType := some ctx.sourceType
      requestedQuantity := intent.request.quantity
      requestedPrice := intent.request.price
      referencePrice := referencePrice
      averageDailyVolume20d := ctx.signalFeatureSnapshot.bind (·.averageVolume20d)
      accumulatedIntradayVolume := quote.bind (·.accumulatedVolume)
      accumulatedIntradayTurnover := quote.bind (·.accumulatedTurnover)
      maxIntradayVolumeParticipationPct := ctx.config.maxIntradayVolumeParticipationPct
      maxIntradayTurnoverParticipationPct := ctx.config.maxIntradayTurnoverParticipationPct
      maxAverageDailyVolumeParticipationPct := ctx.config.maxAverageDailyVolumeParticipationPct
      sizingHint := intent.aiBackendInputs.sizingHint
      currentPositionQty := ctx.positionSnapshot.bind (·.quantity)
      currentPositionAvgPrice := ctx.positionSnapshot.bind (·.averagePrice)
      availableCash := ctx.cashBalanceSnapshot.bind (·.availableCash)
      orderableAmount := ctx.cashBalanceSnapshot.bind (·.orderableAmount)
      nav := ctx.riskLimitNav.or (ctx.cashBalanceSnapshot.bind (·.totalAsset))
      maxSinglePositionPct := maxSinglePositionPct n ctx.config
      minCashBufferPct := orNumber ctx.config.riskMinCashBufferPct ctx.config.minCashBufferPct
      maxOrderValue := orNumber ctx.config.executionMaxOrderValue ctx.config.maxOrderValue
      minOrderQty := ctx.config.minOrderQty
      maxOrderQty := ctx.config.maxOrderQty }

def resolveMarketBuyReferencePrice (n : Numerics) (intent : OrderIntent)
    (liveReferencePrice : Option ℚ) : Option ℚ :=
  let lower := configured intent.request.priceBandLower
  let upper := configured intent.request.priceBandUpper
  let midpoint := lower.bind fun l => upper.map fun u => n.div (n.add l u) 2
  let held := (configured (intent.position.bind (·.marketPrice))).or
    (configured (intent.position.bind (·.averagePrice)))
  (configured liveReferencePrice).or (midpoint.or (upper.or (lower.or held)))

/-- `_resolve_zero_quantity_outcome`: the attempt's status, the stop reason and the message. -/
def resolveZeroQuantityOutcome (intent : OrderIntent) (sizing : SizingResult) :
    String × String × String :=
  if sizing.skipReason = some "non_actionable_decision" then
    let stopReason := if upper intent.aiBackendInputs.decisionType = "HOLD" then "decision_hold"
      else "decision_watch"
    ("non_trade", stopReason, stopReason)
  else ("stopped", "sizing_rejected", orText sizing.skipReason "Sizing rejected order")

inductive LiquidityPolicy where
  | allow
  | block
  | forceLimit
  deriving DecidableEq, Repr

def executionInfeasibleTriggerReasons : List String :=
  ["eligibility_low_average_volume", "eligibility_low_turnover",
    "eligibility_participation_rate_blocked"]

def participationCapConstraints : List String :=
  ["intraday_volume_participation_cap", "intraday_turnover_participation_cap",
    "average_daily_volume_participation_cap"]

/-- `_resolve_limit_price_for_low_liquidity_buy`, with the name of the price's source. -/
def resolveLimitPriceForLowLiquidityBuy (quote : Option Quote) (referencePrice : Option ℚ) :
    Option (ℚ × String) :=
  let ask := (configured (quote.bind (·.ask))).map fun price => (price, "quote.ask")
  let reference := (configured referencePrice).map fun price => (price, "reference_price")
  let last := (configured (quote.bind (·.last))).map fun price => (price, "quote.last")
  ask.or (reference.or last)

/-- Both intraday figures are known, positive and meet `low`. -/
def liveLiquidity (quote : Option Quote) (low : ℚ → ℚ → Bool) : Bool :=
  match quote.bind (·.accumulatedVolume), quote.bind (·.accumulatedTurnover) with
  | some volume, some turnover => 0 < volume && 0 < turnover && low volume turnover
  | _, _ => false

def severeLiveLowLiquidity (quote : Option Quote) : Bool :=
  liveLiquidity quote fun volume turnover => volume < 500 && turnover < 10000000

def moderateLiveLowLiquidity (quote : Option Quote) : Bool :=
  liveLiquidity quote fun volume turnover => volume < 3000 || turnover < 50000000

def triggerBlocked (intent : OrderIntent) : Bool :=
  (intent.context.elim [] (·.eligibilityReasons)).any (· ∈ executionInfeasibleTriggerReasons)

def buildExecutionLiquidityMetadata (action sourceType reason : String)
    (limitPrice : Option (ℚ × String)) (quote : Option Quote) : LiquidityMetadata where
  action := action
  sourceType := sourceType
  reason := reason
  priceSource := limitPrice.map (·.2)
  limitPrice := limitPrice.map (·.1)
  accumulatedVolume := quote.bind (·.accumulatedVolume)
  accumulatedTurnover := quote.bind (·.accumulatedTurnover)

/-- `_classify_buy_execution_liquidity_policy`: the policy, its reason and its metadata. -/
def classifyBuyExecutionLiquidityPolicy (intent : OrderIntent) (sourceType : String)
    (quote : Option Quote) (referencePrice : Option ℚ) (sizing : SizingResult) :
    LiquidityPolicy × String × Option LiquidityMetadata :=
  if intent.request.side ≠ .buy ∨ intent.request.orderType ≠ .market ∨ sourceType = "manual" then
    (.allow, "not_applicable", none)
  else
    let limitPrice := resolveLimitPriceForLowLiquidityBuy quote referencePrice
    let blocked (reason : String) : LiquidityPolicy × String × Option LiquidityMetadata :=
      (.block, reason, buildExecutionLiquidityMetadata "block" sourceType reason limitPrice quote)
    let moderate := moderateLiveLowLiquidity quote
    if triggerBlocked intent then blocked "trigger_execution_infeasible"
    else if severeLiveLowLiquidity quote then blocked "severe_live_low_liquidity"
    else if moderate || sizing.appliedConstraints.any (· ∈ participationCapConstraints) then
      let reason :=
        if moderate then "moderate_live_low_liquidity" else "participation_cap_activated"
      if limitPrice.isNone then blocked "missing_limit_price_for_low_liquidity"
      else (.forceLimit, reason,
        buildExecutionLiquidityMetadata "force_limit" sourceType reason limitPrice quote)
    else (.allow, "no_low_liquidity_signal", none)

/-- A forced limit order at the price the policy found. -/
def forceLimit (intent : OrderIntent) (metadata : LiquidityMetadata) (price : ℚ) : OrderIntent :=
  { intent with
    request := { intent.request with
      orderType := .limit
      price := some price
      executionLiquidityPolicy := some metadata } }

def actionableTypes : List String := ["APPROVE", "BUY", "SELL", "EXIT", "REDUCE"]

def expectedValues (ai : AIDecisionInputs) : List (Option ℚ) :=
  [ai.expectedReturnBps, ai.expectedDownsideBps, ai.netExpectedValueBps, ai.finalTradeScore,
    ai.minimumRequiredEdgeBps, ai.edgeAfterCostBps, ai.estimatedRoundTripCostBps,
    ai.slippageBufferBps]

/-- `_has_required_expected_value_anchor`: selling needs the gate and, where there is one, the
anchor; a new entry needs neither. -/
def hasRequiredExpectedValueAnchor (ai : AIDecisionInputs) (anchor : Option Bool) : Bool :=
  let decisionType := upper (String.ofList (strip ai.decisionType.toList))
  let isNewEntry := decisionType = "APPROVE" || decisionType = "BUY"
  if decisionType ∉ actionableTypes then true
  else if !isNewEntry && !ai.expectedValueGatePassed && !ai.evGateNearMissOverrideApplied then false
  else if (expectedValues ai).any (·.isNone) then false
  else if isNewEntry then true
  else anchor.getD true

/-- The decision is one that an order is made of. -/
def translatable (intent : OrderIntent) : Bool :=
  intent.aiBackendInputs.decisionType ∈ actionableTypes &&
    hasRequiredExpectedValueAnchor intent.aiBackendInputs intent.expectedValueAnchor &&
    (orText (intent.request.metadata.lookup "source_type") "core" ≠ "held_position" ||
      intent.request.side = .sell) &&
    0 < intent.request.quantity

/-- The last `width` decimal digits of a number. -/
def decimalDigits : Nat → Nat → List Char
  | 0, _ => []
  | width + 1, n => decimalDigits width (n / 10) ++ [hexDigit (n % 10)]

/-- `strftime("%H%M%S%f")[:10]`: the time of the day in UTC to a tenth of a millisecond. -/
def clientOrderSuffix (now : Time) : String :=
  let seconds := (now / 1000000).toNat % 86400
  String.ofList (decimalDigits 2 (seconds / 3600) ++ decimalDigits 2 (seconds / 60 % 60) ++
    decimalDigits 2 (seconds % 60) ++ decimalDigits 4 ((now % 1000000).toNat / 100))

/-- `dc-` with the first block of the decision context's identifier and the time. -/
def clientOrderId (decisionContextId : UUID) (now : Time) : String :=
  "dc-" ++ String.ofList ((hex 32 decisionContextId).take 8) ++ "-" ++ clientOrderSuffix now

/-- A limit order without a price becomes a market order. -/
def translate (intent : OrderIntent) (decisionContextId : UUID) (now : Time) : Request :=
  { intent.request with
    clientOrderId := clientOrderId decisionContextId now
    orderType := if intent.request.price = none ∧ intent.request.orderType = .limit then .market
      else intent.request.orderType }

end AgentTrading.Execution
