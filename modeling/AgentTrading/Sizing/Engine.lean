import AgentTrading.RealizedPnl.DecimalContext

/-! The deterministic sizing engine: `sizing_engine`. A decision and the account's data give a
base quantity, and the configured limits are applied to it one after another. -/
namespace AgentTrading.Sizing
open Domain RealizedPnl Library.Rounding

/-- The AI's hint. The factor is the decimal its float prints as. -/
structure SizingHint where
  sizeMode : String := "no_change"
  sizeAdjustmentFactor : ℚ := 0
  deriving DecidableEq, Repr

structure SizingInputs where
  decisionType : String
  side : OrderSide
  requestedQuantity : ℚ
  requestedPrice : Option ℚ := none
  sourceType : Option String := none
  referencePrice : Option ℚ := none
  averageDailyVolume20d : Option ℚ := none
  accumulatedIntradayVolume : Option ℚ := none
  accumulatedIntradayTurnover : Option ℚ := none
  maxIntradayVolumeParticipationPct : Option ℚ := none
  maxIntradayTurnoverParticipationPct : Option ℚ := none
  maxAverageDailyVolumeParticipationPct : Option ℚ := none
  sizingHint : SizingHint := {}
  currentPositionQty : Option ℚ := none
  currentPositionAvgPrice : Option ℚ := none
  availableCash : Option ℚ := none
  orderableAmount : Option ℚ := none
  nav : Option ℚ := none
  maxSinglePositionPct : Option ℚ := none
  minCashBufferPct : Option ℚ := none
  maxOrderValue : Option ℚ := none
  minOrderQty : Option ℚ := none
  maxOrderQty : Option ℚ := none
  lotSize : Option ℚ := none

structure SizingResult where
  quantity : ℚ
  maxOrderValue : Option ℚ := none
  appliedConstraints : List String := []
  skipReason : Option String := none
  deriving DecidableEq, Repr

/-- `x is not None and x > 0`. -/
def configured (x : Option ℚ) : Option ℚ := x.filter (0 < ·)

/-- `price if (price is not None and price > 0) else reference_price`. -/
def effectivePrice (price referencePrice : Option ℚ) : Option ℚ :=
  configured price <|> referencePrice

/-- `to_integral_value(rounding=ROUND_DOWN)`. -/
def toIntegralValue (x : ℚ) : ℚ := truncate x

def skipDecisionTypes : List String := ["HOLD", "WATCH"]

def allocationPct : ℚ := 2 / 10

def defaultMaxIntradayVolumeParticipationPct : ℚ := 3

def defaultMaxIntradayTurnoverParticipationPct : ℚ := 5

def defaultMaxAvgDailyVolumeParticipationPct : ℚ := 2

def defaultHeldReduceFraction : ℚ := 25 / 100

def minEntryValueForNewPosition : ℚ := 500000

section Engine

variable (n : Numerics)

def applyAiSizeHint (baseQty : ℚ) (hint : SizingHint) : ℚ :=
  if hint.sizeMode = "increase" ∧ 0 < hint.sizeAdjustmentFactor then
    toIntegralValue (n.mul baseQty (n.add 1 hint.sizeAdjustmentFactor))
  else if (hint.sizeMode = "fractional_reduce" ∨ hint.sizeMode = "reduce") ∧
      0 < hint.sizeAdjustmentFactor then
    toIntegralValue (n.sub baseQty (n.mul baseQty hint.sizeAdjustmentFactor))
  else baseQty

/-- A fifth of the cash buys the target quantity, at least one share. Here a requested price of
zero, and no other, gives way to the reference price. -/
def resolveBuyTargetQuantity (inputs : SizingInputs) : ℚ :=
  match configured (inputs.requestedPrice.filter (· ≠ 0) <|> inputs.referencePrice),
      configured (inputs.orderableAmount <|> inputs.availableCash) with
  | some effectivePrice, some effectiveCash =>
    let targetNotional := n.mul effectiveCash allocationPct
    let targetQty := toIntegralValue (n.div targetNotional effectivePrice)
    if targetQty < 1 then 1 else targetQty
  | _, _ => inputs.requestedQuantity

def baseQtyNewEntry (inputs : SizingInputs) : ℚ :=
  applyAiSizeHint n inputs.requestedQuantity inputs.sizingHint

def baseQtyReduce (inputs : SizingInputs) : ℚ :=
  match configured inputs.currentPositionQty with
  | some position =>
    let hint := inputs.sizingHint
    let baseQty :=
      if (hint.sizeMode = "fractional_reduce" ∨ hint.sizeMode = "reduce") ∧
          0 < hint.sizeAdjustmentFactor then
        let baseQty := toIntegralValue (n.mul position (max 0 (min 1 hint.sizeAdjustmentFactor)))
        if baseQty ≤ 0 then 1 else baseQty
      else if inputs.sourceType = some "held_position" ∧ inputs.requestedQuantity ≤ 1 then
        let baseQty := toIntegralValue (n.mul position defaultHeldReduceFraction)
        if baseQty ≤ 0 then 1 else baseQty
      else inputs.requestedQuantity
    min baseQty position
  | none => inputs.requestedQuantity

def baseQtyExit (inputs : SizingInputs) : ℚ :=
  match configured inputs.currentPositionQty with
  | some position => position
  | none => inputs.requestedQuantity

def resolveBaseQuantity (inputs : SizingInputs) : ℚ :=
  if inputs.decisionType ∈ skipDecisionTypes then 0
  else if inputs.side = .buy then resolveBuyTargetQuantity n inputs
  else if inputs.decisionType = "REDUCE" then baseQtyReduce n inputs
  else if inputs.decisionType = "EXIT" then baseQtyExit inputs
  else if inputs.decisionType = "SELL" ∨
      (inputs.decisionType = "APPROVE" ∧ inputs.side = .sell) then baseQtyExit inputs
  else baseQtyNewEntry n inputs

/-- What the buffer and the slippage factor leave of the cash. The factor is taken only when no
price was requested. -/
def spendableCash (price referencePrice minCashBufferPct : Option ℚ) (effectiveCash : ℚ) : ℚ :=
  let effectiveCash :=
    match configured minCashBufferPct with
    | some pct => n.mul effectiveCash (n.sub 1 (n.div pct 100))
    | none => effectiveCash
  if price = none ∧ (configured referencePrice).isSome then
    toIntegralValue (n.mul effectiveCash (95 / 100))
  else effectiveCash

def applyCashConstraint (qty : ℚ) (price availableCash minCashBufferPct : Option ℚ)
    (constraints : List String) (orderableAmount referencePrice : Option ℚ) :
    ℚ × List String :=
  match configured (effectivePrice price referencePrice), orderableAmount <|> availableCash with
  | some effectivePrice, some effectiveCash =>
    if orderableAmount.isSome ∧ effectiveCash ≤ 0 then
      (0, constraints ++ ["orderable_amount_zero"])
    else
      let effectiveCash := spendableCash n price referencePrice minCashBufferPct effectiveCash
      let maxQtyByCash := toIntegralValue (n.div effectiveCash effectivePrice)
      if maxQtyByCash < qty then (maxQtyByCash, constraints ++ ["cash_limit"])
      else (qty, constraints)
  | _, _ => (qty, constraints)

/-- What the limit on a single position leaves for it. -/
def remainingCapacity (nav maxSinglePositionPct : ℚ)
    (currentPositionQty currentPositionAvgPrice : Option ℚ) : ℚ :=
  let maxPositionValue := n.div (n.mul nav maxSinglePositionPct) 100
  let currentValue :=
    match currentPositionQty, currentPositionAvgPrice with
    | some qty, some avgPrice => n.mul qty avgPrice
    | _, _ => 0
  n.sub maxPositionValue currentValue

def applyConcentrationConstraint (qty : ℚ) (price currentPositionQty currentPositionAvgPrice
    nav maxSinglePositionPct : Option ℚ) (constraints : List String)
    (referencePrice : Option ℚ) : ℚ × List String :=
  match configured nav, configured maxSinglePositionPct,
      configured (effectivePrice price referencePrice) with
  | some nav, some maxSinglePositionPct, some effectivePrice =>
    let remainingCapacity :=
      remainingCapacity n nav maxSinglePositionPct currentPositionQty currentPositionAvgPrice
    if remainingCapacity ≤ 0 then (0, constraints ++ ["position_concentration"])
    else
      let maxAdditionalQty := toIntegralValue (n.div remainingCapacity effectivePrice)
      -- an unknown position counts as a new one and has to be worth opening
      if currentPositionQty = none ∧ 0 < maxAdditionalQty ∧
          n.mul qty effectivePrice < minEntryValueForNewPosition then
        (0, constraints ++ ["min_entry_threshold"])
      else if maxAdditionalQty < qty then
        (maxAdditionalQty, constraints ++ ["position_concentration"])
      else (qty, constraints)
  | _, _, _ => (qty, constraints)

def applyQtyBounds (qty : ℚ) (maxOrderQty minOrderQty : Option ℚ) (constraints : List String) :
    ℚ × List String :=
  let (qty, constraints) :=
    match configured maxOrderQty with
    | some maxOrderQty =>
      if maxOrderQty < qty then (maxOrderQty, constraints ++ ["max_qty"]) else (qty, constraints)
    | none => (qty, constraints)
  match configured minOrderQty with
  | some minOrderQty =>
    if qty < minOrderQty then (0, constraints ++ ["min_qty"]) else (qty, constraints)
  | none => (qty, constraints)

def applyMaxOrderValue (qty : ℚ) (price maxOrderValue : Option ℚ) (constraints : List String)
    (referencePrice : Option ℚ) : ℚ × List String :=
  match configured maxOrderValue, configured (effectivePrice price referencePrice) with
  | some maxOrderValue, some effectivePrice =>
    let currentValue := n.mul effectivePrice qty
    if maxOrderValue < currentValue then
      (toIntegralValue (n.div maxOrderValue effectivePrice), constraints ++ ["max_order_value"])
    else (qty, constraints)
  | _, _ => (qty, constraints)

def applyLotSize (qty : ℚ) (lotSize : Option ℚ) : ℚ :=
  match configured lotSize with
  | some lotSize => n.mul (toIntegralValue (n.div qty lotSize)) lotSize
  | none => qty

/-- A percentage of a volume, in shares. -/
def participationCap (volume pct : ℚ) : ℚ := n.div (n.mul volume pct) 100

/-- The participation caps that have their data, with the label each leaves. -/
def participationCaps (price referencePrice accumulatedIntradayVolume
    accumulatedIntradayTurnover averageDailyVolume20d maxIntradayVolumeParticipationPct
    maxIntradayTurnoverParticipationPct maxAverageDailyVolumeParticipationPct : Option ℚ) :
    List (ℚ × String) :=
  let volumeCap :=
    match configured accumulatedIntradayVolume, configured (some
        (maxIntradayVolumeParticipationPct.getD defaultMaxIntradayVolumeParticipationPct)) with
    | some volume, some pct =>
      [(toIntegralValue (participationCap n volume pct), "intraday_volume_participation_cap")]
    | _, _ => []
  let turnoverCap :=
    match configured accumulatedIntradayTurnover,
        configured (effectivePrice price referencePrice), configured (some
        (maxIntradayTurnoverParticipationPct.getD
          defaultMaxIntradayTurnoverParticipationPct)) with
    | some turnover, some effectivePrice, some pct =>
      [(toIntegralValue (n.div (participationCap n turnover pct) effectivePrice),
        "intraday_turnover_participation_cap")]
    | _, _, _ => []
  let averageCap :=
    match configured averageDailyVolume20d, configured (some
        (maxAverageDailyVolumeParticipationPct.getD
          defaultMaxAvgDailyVolumeParticipationPct)) with
    | some volume, some pct =>
      [(toIntegralValue (participationCap n volume pct), "average_daily_volume_participation_cap")]
    | _, _ => []
  volumeCap ++ turnoverCap ++ averageCap

def applyLiquidityParticipationConstraint (qty : ℚ) (constraints : List String)
    (capCandidates : List (ℚ × String)) : ℚ × List String :=
  let constraints := constraints ++ (capCandidates.filter (·.1 < qty)).map Prod.snd
  match (capCandidates.map Prod.fst).min? with
  | some maxQty => if maxQty < qty then (max 0 maxQty, constraints) else (qty, constraints)
  | none => (qty, constraints)

/-- The steps after the bounds, up to the lots: cash and participation for a BUY only. -/
def applyLaterConstraints (inputs : SizingInputs) (qty : ℚ) (constraints : List String) :
    ℚ × List String :=
  let (qty, constraints) :=
    if inputs.side = .buy then
      applyCashConstraint n qty inputs.requestedPrice inputs.availableCash
        inputs.minCashBufferPct constraints inputs.orderableAmount inputs.referencePrice
    else (qty, constraints)
  let (qty, constraints) :=
    applyConcentrationConstraint n qty inputs.requestedPrice inputs.currentPositionQty
      inputs.currentPositionAvgPrice inputs.nav inputs.maxSinglePositionPct constraints
      inputs.referencePrice
  if inputs.side = .buy then
    applyLiquidityParticipationConstraint qty constraints
      (participationCaps n inputs.requestedPrice inputs.referencePrice
        inputs.accumulatedIntradayVolume inputs.accumulatedIntradayTurnover
        inputs.averageDailyVolume20d inputs.maxIntradayVolumeParticipationPct
        inputs.maxIntradayTurnoverParticipationPct
        inputs.maxAverageDailyVolumeParticipationPct)
  else (qty, constraints)

def calculateSizing (inputs : SizingInputs) : SizingResult :=
  let qty := resolveBaseQuantity n inputs
  if qty ≤ 0 then { quantity := 0, skipReason := some "non_actionable_decision" }
  else
    let (qty, constraints) :=
      applyMaxOrderValue n qty inputs.requestedPrice inputs.maxOrderValue []
        inputs.referencePrice
    let (qty, constraints) :=
      applyQtyBounds qty inputs.maxOrderQty inputs.minOrderQty constraints
    if qty ≤ 0 then
      { quantity := 0, appliedConstraints := constraints, skipReason := some "below_min_qty" }
    else
      let (qty, constraints) := applyLaterConstraints n inputs qty constraints
      let qty := applyLotSize n qty inputs.lotSize
      if qty ≤ 0 then
        { quantity := 0, appliedConstraints := constraints
          skipReason := some "zero_after_constraints" }
      else
        let effectivePrice := inputs.requestedPrice <|> inputs.referencePrice
        { quantity := qty
          maxOrderValue := (configured effectivePrice).map (n.mul · qty)
          appliedConstraints := constraints }

end Engine

end AgentTrading.Sizing
