import Mathlib.Algebra.Order.Field.Rat
import AgentTrading.Domain.Entities
import AgentTrading.Library.Outcome

/-! The moving-average cost basis of one account and instrument: `realized_pnl_engine`.
Comparisons are exact; the result of every operation passes through the decimal context. -/
namespace AgentTrading.RealizedPnl
open Domain Library

/-- How the services compute with decimals. `round` is the decimal context, and `column` what
a decimal reads back as from the tables: itself in memory, its nearest value of eight digits
in a NUMERIC column. -/
structure Numerics where
  round : ℚ → ℚ
  column : ℚ → ℚ

namespace Numerics

variable (n : Numerics)

def add (a b : ℚ) : ℚ := n.round (a + b)

def sub (a b : ℚ) : ℚ := n.round (a - b)

def mul (a b : ℚ) : ℚ := n.round (a * b)

def div (a b : ℚ) : ℚ := n.round (a / b)

end Numerics

/-- The nearest integer, an even one at equal distance. -/
def roundHalfEven (x : ℚ) : Int :=
  let below := x.floor
  if x - below < 1 / 2 then below
  else if 1 / 2 < x - below then below + 1
  else if below % 2 = 0 then below
  else below + 1

/-- `10 ^ e`. -/
def powerOfTen (e : Int) : ℚ :=
  if 0 ≤ e then ((10 ^ e.toNat : Nat) : ℚ) else 1 / ((10 ^ (-e).toNat : Nat) : ℚ)

def decimalDigits (m : Nat) : Int := (Nat.toDigits 10 m).length

/-- The default decimal context: 28 significant digits, half to even. The leading digit of a
fraction stands at the difference of the digit counts or one place below it. -/
def decimalContext (x : ℚ) : ℚ :=
  let e := decimalDigits x.num.natAbs - decimalDigits x.den - 27
  let e := if |x| < powerOfTen (e + 27) then e - 1 else e
  roundHalfEven (x / powerOfTen e) * powerOfTen e

/-- A NUMERIC column of scale eight, half away from zero. -/
def numericColumn (x : ℚ) : ℚ :=
  let magnitude : ℚ := (|x| * 100000000 + 1 / 2).floor / 100000000
  if x < 0 then -magnitude else magnitude

/-- The services over the in-memory tables. -/
def inMemory : Numerics := ⟨decimalContext, id⟩

/-- The services over the database tables. -/
def postgres : Numerics := ⟨decimalContext, numericColumn⟩

inductive FeeTaxSource where
  | reported
  | assumedZero
  | calculatedFromPolicy
  | policyNotApplicable
  | historicalPolicyEstimate
  deriving DecidableEq, Repr

def FeeTaxSource.value : FeeTaxSource → String
  | reported => "reported"
  | assumedZero => "assumed_zero"
  | calculatedFromPolicy => "calculated_from_policy"
  | policyNotApplicable => "policy_not_applicable"
  | historicalPolicyEstimate => "historical_policy_estimate"

/-- `RealizedPnlFeeTaxSource(text)`. -/
def FeeTaxSource.ofValue? (text : String) : Option FeeTaxSource :=
  [reported, assumedZero, calculatedFromPolicy, policyNotApplicable,
    historicalPolicyEstimate].find? fun source => source.value = text

inductive BuyFeeAllocationSource where
  | fullyCalculated
  | fullyAssumedZero
  | partiallyAssumedZero
  | historicallyEstimated
  deriving DecidableEq, Repr

structure NormalizedFill where
  fillEventId : UUID
  accountId : UUID
  instrumentId : UUID
  brokerOrderId : UUID
  orderRequestId : UUID
  side : OrderSide
  quantity : ℚ
  price : ℚ
  fee : ℚ
  tax : ℚ
  feeTaxSource : FeeTaxSource
  fillTimestamp : Time
  deriving DecidableEq

structure PositionCostBasisStateEntity where
  accountId : UUID
  instrumentId : UUID
  quantity : ℚ
  averageCost : ℚ
  lastAppliedFillEventId : Option UUID := none
  lastAppliedFillTimestamp : Option Time := none
  recomputeRequired : Bool := false
  recomputeReason : Option String := none
  remainingBuyFeePool : ℚ := 0
  buyFeePoolProvenance : BuyFeeAllocationSource := .fullyAssumedZero
  deriving DecidableEq

structure RealizedPnlEventEntity where
  realizedPnlEventId : UUID
  accountId : UUID
  instrumentId : UUID
  fillEventId : UUID
  brokerOrderId : UUID
  orderRequestId : UUID
  sellQuantity : ℚ
  sellPrice : ℚ
  avgCostBasisBefore : ℚ
  fee : ℚ
  tax : ℚ
  feeTaxSource : FeeTaxSource
  realizedPnlGross : ℚ
  realizedPnlNet : ℚ
  positionQuantityAfter : ℚ
  computationRunId : UUID
  fillTimestamp : Time
  allocatedBuyFee : ℚ := 0
  buyFeeAllocationSource : BuyFeeAllocationSource := .fullyAssumedZero
  deriving DecidableEq

/-- The event as another run computes it. -/
def RealizedPnlEventEntity.withRun (event : RealizedPnlEventEntity) (runId : UUID) :
    RealizedPnlEventEntity :=
  { event with computationRunId := runId }

inductive EngineError where
  | invalidFillQuantity (fillEventId : UUID) (quantity : ℚ)
  | invalidFillPrice (fillEventId : UUID) (price : ℚ)
  | invalidFeeOrTax (fillEventId : UUID) (fee tax : ℚ)
  | feeTaxSourceMismatch (fillEventId : UUID) (fee tax : ℚ)
  | missingCostBasisState (fillEventId accountId instrumentId : UUID)
  | insufficientPositionQuantity (fillEventId : UUID) (heldQuantity sellQuantity : ℚ)
  | fillsNotSorted (fillEventId : UUID) (fillTimestamp previousTimestamp : Time)
  deriving DecidableEq

def EngineError.className : EngineError → String
  | invalidFillQuantity .. => "InvalidFillQuantityError"
  | invalidFillPrice .. => "InvalidFillPriceError"
  | invalidFeeOrTax .. => "InvalidFeeOrTaxError"
  | feeTaxSourceMismatch .. => "FeeTaxSourceMismatchError"
  | missingCostBasisState .. => "MissingCostBasisStateError"
  | insufficientPositionQuantity .. => "InsufficientPositionQuantityError"
  | fillsNotSorted .. => "FillsNotSortedError"

inductive FeeTaxSourceBucket where
  | calculatedIsh
  | historicalIsh
  | zeroIsh
  deriving DecidableEq

def classifyFeeTaxSourceForPool : FeeTaxSource → FeeTaxSourceBucket
  | .calculatedFromPolicy | .reported => .calculatedIsh
  | .historicalPolicyEstimate => .historicalIsh
  | .assumedZero | .policyNotApplicable => .zeroIsh

def freshEntryProvenance : FeeTaxSourceBucket → BuyFeeAllocationSource
  | .calculatedIsh => .fullyCalculated
  | .historicalIsh => .historicallyEstimated
  | .zeroIsh => .fullyAssumedZero

/-- A pool stays pure only while every buy is of its own bucket. -/
def mergeBuyFeePoolProvenance (current : BuyFeeAllocationSource) (source : FeeTaxSource) :
    BuyFeeAllocationSource :=
  match current, classifyFeeTaxSourceForPool source with
  | .fullyCalculated, .calculatedIsh => .fullyCalculated
  | .historicallyEstimated, .historicalIsh => .historicallyEstimated
  | .fullyAssumedZero, .zeroIsh => .fullyAssumedZero
  | _, _ => .partiallyAssumedZero

def validateFill (fill : NormalizedFill) : Except EngineError Unit :=
  if fill.quantity ≤ 0 then .error (.invalidFillQuantity fill.fillEventId fill.quantity)
  else if fill.price < 0 then .error (.invalidFillPrice fill.fillEventId fill.price)
  else if fill.fee < 0 ∨ fill.tax < 0 then
    .error (.invalidFeeOrTax fill.fillEventId fill.fee fill.tax)
  else if fill.feeTaxSource = .assumedZero ∧ (fill.fee ≠ 0 ∨ fill.tax ≠ 0) then
    .error (.feeTaxSourceMismatch fill.fillEventId fill.fee fill.tax)
  else .ok ()

section
variable (n : Numerics) (deriveEventId : UUID → UUID)

/-- The row a fill leaves: the fill's identity, and no recompute flag. -/
def appliedState (fill : NormalizedFill) (quantity averageCost pool : ℚ)
    (provenance : BuyFeeAllocationSource) : PositionCostBasisStateEntity where
  accountId := fill.accountId
  instrumentId := fill.instrumentId
  quantity := quantity
  averageCost := averageCost
  lastAppliedFillEventId := some fill.fillEventId
  lastAppliedFillTimestamp := some fill.fillTimestamp
  recomputeRequired := false
  recomputeReason := none
  remainingBuyFeePool := pool
  buyFeePoolProvenance := provenance

/-- A position that holds something; an emptied row counts as none. -/
def held (state : Option PositionCostBasisStateEntity) : Option PositionCostBasisStateEntity :=
  state.filter (·.quantity ≠ 0)

def applyBuy (state : Option PositionCostBasisStateEntity) (fill : NormalizedFill) :
    PositionCostBasisStateEntity :=
  match held state with
  | none =>
    appliedState fill fill.quantity fill.price fill.fee
      (freshEntryProvenance (classifyFeeTaxSourceForPool fill.feeTaxSource))
  | some state =>
    let quantity := n.add state.quantity fill.quantity
    appliedState fill quantity
      (n.div (n.add (n.mul state.quantity state.averageCost) (n.mul fill.quantity fill.price))
        quantity)
      (n.add state.remainingBuyFeePool fill.fee)
      (mergeBuyFeePoolProvenance state.buyFeePoolProvenance fill.feeTaxSource)

/-- The share of the pool a sale takes: all of it when the position is closed. -/
def allocatedBuyFee (state : PositionCostBasisStateEntity) (fill : NormalizedFill) : ℚ :=
  if fill.quantity = state.quantity then state.remainingBuyFeePool
  else n.mul state.remainingBuyFeePool (n.div fill.quantity state.quantity)

def applySell (state : Option PositionCostBasisStateEntity) (fill : NormalizedFill)
    (computationRunId : UUID) :
    Except EngineError (PositionCostBasisStateEntity × RealizedPnlEventEntity) :=
  match held state with
  | none =>
    .error (.missingCostBasisState fill.fillEventId fill.accountId fill.instrumentId)
  | some state =>
    let gross := n.mul (n.sub fill.price state.averageCost) fill.quantity
    let quantity := n.sub state.quantity fill.quantity
    let allocated := allocatedBuyFee n state fill
    -- The second comparison repeats the first on the rounded remainder.
    if fill.quantity > state.quantity ∨ quantity < 0 then
      .error (.insufficientPositionQuantity fill.fillEventId state.quantity fill.quantity)
    else
      .ok (appliedState fill quantity (if quantity = 0 then 0 else state.averageCost)
          (if fill.quantity = state.quantity then 0
           else n.sub state.remainingBuyFeePool allocated)
          state.buyFeePoolProvenance,
        { realizedPnlEventId := deriveEventId fill.fillEventId
          accountId := fill.accountId
          instrumentId := fill.instrumentId
          fillEventId := fill.fillEventId
          brokerOrderId := fill.brokerOrderId
          orderRequestId := fill.orderRequestId
          sellQuantity := fill.quantity
          sellPrice := fill.price
          avgCostBasisBefore := state.averageCost
          fee := fill.fee
          tax := fill.tax
          feeTaxSource := fill.feeTaxSource
          realizedPnlGross := gross
          realizedPnlNet := n.sub (n.sub (n.sub gross fill.fee) fill.tax) allocated
          positionQuantityAfter := quantity
          computationRunId := computationRunId
          fillTimestamp := fill.fillTimestamp
          allocatedBuyFee := allocated
          buyFeeAllocationSource := state.buyFeePoolProvenance })

def applyFillToCostBasis (state : Option PositionCostBasisStateEntity) (fill : NormalizedFill)
    (computationRunId : UUID) :
    Except EngineError (PositionCostBasisStateEntity × Option RealizedPnlEventEntity) := do
  validateFill fill
  match fill.side with
  | .buy => return (applyBuy n state fill, none)
  | .sell =>
    let (state, event) ← applySell n deriveEventId state fill computationRunId
    return (state, some event)

structure ReplayResult where
  finalState : Option PositionCostBasisStateEntity
  realizedPnlEvents : List RealizedPnlEventEntity
  deriving DecidableEq

/-- The replay loop; `previous` is the time of the fill before. -/
def replayLoop (computationRunId : UUID) (previous : Option Time) (acc : ReplayResult) :
    List NormalizedFill → Except EngineError ReplayResult
  | [] => .ok acc
  | fill :: fills =>
    match previous.filter (fill.fillTimestamp < ·) with
    | some previous =>
      .error (.fillsNotSorted fill.fillEventId fill.fillTimestamp previous)
    | none =>
      match applyFillToCostBasis n deriveEventId acc.finalState fill computationRunId with
      | .error e => .error e
      | .ok (state, event) =>
        replayLoop computationRunId (some fill.fillTimestamp)
          ⟨some state, acc.realizedPnlEvents ++ event.toList⟩ fills

def replayFills (orderedFills : List NormalizedFill) (computationRunId : UUID)
    (initialState : Option PositionCostBasisStateEntity := none) :
    Except EngineError ReplayResult :=
  replayLoop n deriveEventId computationRunId
    (initialState.bind (·.lastAppliedFillTimestamp)) ⟨initialState, []⟩ orderedFills

end

/-- The state a fill leaves names the fill and has no flag, and an event comes from a sale and
copies it. -/
structure FromFill (fill : NormalizedFill) (computationRunId : UUID)
    (state : PositionCostBasisStateEntity) (event : Option RealizedPnlEventEntity) : Prop where
  account : state.accountId = fill.accountId
  instrument : state.instrumentId = fill.instrumentId
  lastFill : state.lastAppliedFillEventId = some fill.fillEventId
  lastTime : state.lastAppliedFillTimestamp = some fill.fillTimestamp
  unflagged : state.recomputeRequired = false ∧ state.recomputeReason = none
  isSale : event.isSome = true ↔ fill.side = .sell
  copies : ∀ e, event = some e → e.accountId = fill.accountId ∧
    e.instrumentId = fill.instrumentId ∧ e.fillEventId = fill.fillEventId ∧
    e.fillTimestamp = fill.fillTimestamp ∧ e.fee = fill.fee ∧ e.tax = fill.tax ∧
    e.computationRunId = computationRunId

section
variable {n : Numerics} {deriveEventId : UUID → UUID}

theorem fromFill_buy (state : Option PositionCostBasisStateEntity) (fill : NormalizedFill)
    (runId : UUID) (hside : fill.side = .buy) :
    FromFill fill runId (applyBuy n state fill) none := by
  have hnone : (none : Option RealizedPnlEventEntity).isSome = true ↔ fill.side = .sell := by
    simp only [hside, Option.isSome_none, Bool.false_eq_true, reduceCtorEq]
  unfold applyBuy
  cases held state with
  | none => exact ⟨rfl, rfl, rfl, rfl, ⟨rfl, rfl⟩, hnone, fun _ h => nomatch h⟩
  | some row => exact ⟨rfl, rfl, rfl, rfl, ⟨rfl, rfl⟩, hnone, fun _ h => nomatch h⟩

theorem fromFill_sell {state : Option PositionCostBasisStateEntity} {fill : NormalizedFill}
    {runId : UUID} {state' : PositionCostBasisStateEntity} {event : RealizedPnlEventEntity}
    (hside : fill.side = .sell)
    (h : applySell n deriveEventId state fill runId = .ok (state', event)) :
    FromFill fill runId state' (some event) := by
  have hsome : (some event).isSome = true ↔ fill.side = .sell := by
    simp only [hside, Option.isSome_some]
  unfold applySell at h
  split at h
  · contradiction
  · dsimp only at h
    split at h
    · contradiction
    · cases h
      refine ⟨rfl, rfl, rfl, rfl, ⟨rfl, rfl⟩, hsome, ?_⟩
      rintro e ⟨⟩
      exact ⟨rfl, rfl, rfl, rfl, rfl, rfl, rfl⟩

theorem applyFillToCostBasis_fromFill {state : Option PositionCostBasisStateEntity}
    {fill : NormalizedFill} {runId : UUID} {state' : PositionCostBasisStateEntity}
    {event : Option RealizedPnlEventEntity}
    (h : applyFillToCostBasis n deriveEventId state fill runId = .ok (state', event)) :
    FromFill fill runId state' event := by
  unfold applyFillToCostBasis at h
  obtain ⟨-, -, h⟩ := bind_eq_ok.mp h
  cases hside : fill.side with
  | buy =>
    rw [hside] at h
    cases h
    exact fromFill_buy state fill runId hside
  | sell =>
    rw [hside] at h
    obtain ⟨⟨state'', event'⟩, hsell, h⟩ := bind_eq_ok.mp h
    cases h
    exact fromFill_sell hside hsell

theorem applySell_withRun (state : Option PositionCostBasisStateEntity) (fill : NormalizedFill)
    (runId runId' : UUID) :
    applySell n deriveEventId state fill runId' =
      (applySell n deriveEventId state fill runId).map fun p => (p.1, p.2.withRun runId') := by
  unfold applySell
  cases held state with
  | none => rfl
  | some row =>
    dsimp only
    split
    · rfl
    · rfl

/-- The run only signs the event. -/
theorem applyFillToCostBasis_withRun (state : Option PositionCostBasisStateEntity)
    (fill : NormalizedFill) (runId runId' : UUID) :
    applyFillToCostBasis n deriveEventId state fill runId' =
      (applyFillToCostBasis n deriveEventId state fill runId).map
        fun p => (p.1, p.2.map (·.withRun runId')) := by
  unfold applyFillToCostBasis
  cases validateFill fill with
  | error e => rfl
  | ok _ =>
    cases fill.side with
    | buy => rfl
    | sell =>
      rw [applySell_withRun state fill runId runId']
      cases applySell n deriveEventId state fill runId with
      | error e => rfl
      | ok p => rfl

end

end AgentTrading.RealizedPnl
