import Mathlib.Algebra.Order.Field.Rat
import AgentTrading.Domain.Entities

/-! From cumulative observations to stored fills: the resolver that turns a cumulative
quantity into an increment, and the synchronisation that stores the increments after a second
de-duplication by key. All rows are those of one broker order. -/
namespace AgentTrading.Fills
open Domain

/-- What the broker reports; here the quantity is cumulative and the price an average. -/
structure FillEvent where
  brokerName : BrokerName
  brokerOrderId : String
  symbol : String
  side : OrderSide
  fillQuantity : ℚ
  fillPrice : ℚ
  fillTimestamp : Time
  brokerFillId : Option String := none
  fee : Option ℚ := none
  tax : Option ℚ := none
  deriving DecidableEq

structure KisFillCumulativeStateEntity where
  kisFillCumulativeStateId : UUID
  accountId : UUID
  brokerName : String
  brokerNativeOrderId : String
  lastCumulativeFilledQuantity : ℚ
  lastAverageFillPrice : Option ℚ
  lastObservedAt : Time
  lastRawFieldFingerprint : Option String := none
  deriving DecidableEq

inductive AnomalyReason where
  | negativeDelta
  | unpriceableDelta
  deriving DecidableEq, Repr

inductive IncrementalFillDecision where
  | noNewFill
  | newFill (deltaQuantity inferredPrice : ℚ)
  | anomaly (reason : AnomalyReason)
  deriving DecidableEq

/-- `_infer_delta_price`: the price of the increment by splitting the weighted average. -/
def inferDeltaPrice (currentQty : ℚ) (currentAvg : Option ℚ) (priorQty : ℚ)
    (priorAvg : Option ℚ) : Option ℚ :=
  match currentAvg with
  | none => none
  | some average =>
    let deltaQty := currentQty - priorQty
    if deltaQty ≤ 0 then none
    else
      match priorAvg with
      | none => some average
      | some prior =>
        if priorQty = 0 then some average
        else
          let numerator := average * currentQty - prior * priorQty
          if numerator < 0 then none else some (numerator / deltaQty)

/-- One observation of an order as the resolver receives it. -/
structure Observation where
  accountId : UUID
  brokerName : String
  brokerNativeOrderId : String
  currentCumulativeQuantity : ℚ
  currentAveragePrice : Option ℚ
  rawFieldFingerprint : Option String := none

/-- A price of zero counts as no price: `current_average_price or prior_price`. -/
def orPrice (current prior : Option ℚ) : Option ℚ :=
  match current with
  | some p => if p = 0 then prior else some p
  | none => prior

def lastQuantity (prior : Option KisFillCumulativeStateEntity) : ℚ :=
  match prior with
  | some s => s.lastCumulativeFilledQuantity
  | none => 0

@[simp] theorem lastQuantity_none : lastQuantity none = 0 := rfl

@[simp] theorem lastQuantity_some (s : KisFillCumulativeStateEntity) :
    lastQuantity (some s) = s.lastCumulativeFilledQuantity := rfl

/-- The row written for an observation; an existing row keeps its identifier. -/
def upserted (prior : Option KisFillCumulativeStateEntity) (o : Observation) (average : Option ℚ)
    (now : Time) (freshId : UUID) : KisFillCumulativeStateEntity where
  kisFillCumulativeStateId := match prior with
    | some s => s.kisFillCumulativeStateId
    | none => freshId
  accountId := o.accountId
  brokerName := o.brokerName
  brokerNativeOrderId := o.brokerNativeOrderId
  lastCumulativeFilledQuantity := o.currentCumulativeQuantity
  lastAverageFillPrice := average
  lastObservedAt := now
  lastRawFieldFingerprint := o.rawFieldFingerprint

/-- `resolve_incremental_fill` on the stored state of the order. An anomaly leaves the state
as it is. -/
def resolveIncrementalFill (prior : Option KisFillCumulativeStateEntity) (o : Observation)
    (now : Time) (freshId : UUID) :
    IncrementalFillDecision × Option KisFillCumulativeStateEntity :=
  let priorPrice := prior.bind (·.lastAverageFillPrice)
  let deltaQty := o.currentCumulativeQuantity - lastQuantity prior
  if deltaQty = 0 then
    (.noNewFill, some (upserted prior o (orPrice o.currentAveragePrice priorPrice) now freshId))
  else if deltaQty < 0 then (.anomaly .negativeDelta, prior)
  else
    match inferDeltaPrice o.currentCumulativeQuantity o.currentAveragePrice (lastQuantity prior)
        priorPrice with
    | none => (.anomaly .unpriceableDelta, prior)
    | some price =>
      (.newFill deltaQty price, some (upserted prior o o.currentAveragePrice now freshId))

theorem resolveIncrementalFill_cases (prior : Option KisFillCumulativeStateEntity)
    (o : Observation) (now : Time) (freshId : UUID) :
    ((resolveIncrementalFill prior o now freshId).1 = .noNewFill ∧
      o.currentCumulativeQuantity = lastQuantity prior ∧
      lastQuantity (resolveIncrementalFill prior o now freshId).2 = lastQuantity prior) ∨
    (∃ reason, (resolveIncrementalFill prior o now freshId).1 = .anomaly reason ∧
      (resolveIncrementalFill prior o now freshId).2 = prior) ∨
    (∃ price, (resolveIncrementalFill prior o now freshId).1 =
        .newFill (o.currentCumulativeQuantity - lastQuantity prior) price ∧
      0 < o.currentCumulativeQuantity - lastQuantity prior ∧
      lastQuantity (resolveIncrementalFill prior o now freshId).2 =
        o.currentCumulativeQuantity) := by
  unfold resolveIncrementalFill
  dsimp only
  by_cases hzero : o.currentCumulativeQuantity - lastQuantity prior = 0
  · have heq : o.currentCumulativeQuantity = lastQuantity prior := sub_eq_zero.mp hzero
    simp only [if_pos hzero]
    exact .inl ⟨trivial, heq, heq⟩
  · simp only [if_neg hzero]
    by_cases hneg : o.currentCumulativeQuantity - lastQuantity prior < 0
    · simp only [if_pos hneg]
      exact .inr (.inl ⟨.negativeDelta, rfl, trivial⟩)
    · simp only [if_neg hneg]
      have hpos : 0 < o.currentCumulativeQuantity - lastQuantity prior :=
        lt_of_le_of_ne (not_lt.mp hneg) (Ne.symm hzero)
      split
      · exact .inr (.inl ⟨.unpriceableDelta, rfl, rfl⟩)
      · exact .inr (.inr ⟨_, rfl, hpos, rfl⟩)

theorem resolveIncrementalFill_writes {prior : Option KisFillCumulativeStateEntity}
    {o : Observation} {now : Time} {freshId : UUID}
    (h : ∀ reason, (resolveIncrementalFill prior o now freshId).1 ≠ .anomaly reason) :
    ∃ average, (resolveIncrementalFill prior o now freshId).2 =
      some (upserted prior o average now freshId) := by
  unfold resolveIncrementalFill at h ⊢
  dsimp only at h ⊢
  split
  · exact ⟨_, rfl⟩
  next hzero =>
    rw [if_neg hzero] at h
    split
    next hneg =>
      rw [if_pos hneg] at h
      exact absurd rfl (h .negativeDelta)
    next hneg =>
      rw [if_neg hneg] at h
      split
      next hprice =>
        rw [hprice] at h
        exact absurd rfl (h .unpriceableDelta)
      next => exact ⟨_, rfl⟩

end AgentTrading.Fills
