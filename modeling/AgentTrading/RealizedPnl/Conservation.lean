import Mathlib.Tactic.FieldSimp
import AgentTrading.Library.Lots
import AgentTrading.RealizedPnl.Replay

/-! What a replay keeps when nothing is rounded. The cost of a position and the buy fees not
yet charged are two lots over the same units; a purchase puts into both and a sale takes its
share out of both. -/
namespace AgentTrading.RealizedPnl
open Domain Library

/-- Arithmetic that rounds nothing. -/
def exact : Numerics := ⟨id, id⟩

@[simp] theorem exact_add (a b : ℚ) : exact.add a b = a + b := rfl

@[simp] theorem exact_sub (a b : ℚ) : exact.sub a b = a - b := rfl

@[simp] theorem exact_mul (a b : ℚ) : exact.mul a b = a * b := rfl

@[simp] theorem exact_div (a b : ℚ) : exact.div a b = a / b := rfl

/-! The columns of a position that may not exist. -/

def quantityOf (state : Option PositionCostBasisStateEntity) : ℚ := (state.map (·.quantity)).getD 0

def averageCostOf (state : Option PositionCostBasisStateEntity) : ℚ :=
  (state.map (·.averageCost)).getD 0

def poolOf (state : Option PositionCostBasisStateEntity) : ℚ :=
  (state.map (·.remainingBuyFeePool)).getD 0

@[simp] theorem quantityOf_some (state : PositionCostBasisStateEntity) :
    quantityOf (some state) = state.quantity := rfl

@[simp] theorem averageCostOf_some (state : PositionCostBasisStateEntity) :
    averageCostOf (some state) = state.averageCost := rfl

@[simp] theorem poolOf_some (state : PositionCostBasisStateEntity) :
    poolOf (some state) = state.remainingBuyFeePool := rfl

def costMove (fill : NormalizedFill) : Lot.Move ℚ :=
  match fill.side with
  | .buy => .put fill.quantity (fill.quantity * fill.price)
  | .sell => .take fill.quantity

def feeMove (fill : NormalizedFill) : Lot.Move ℚ :=
  match fill.side with
  | .buy => .put fill.quantity fill.fee
  | .sell => .take fill.quantity

/-- The two lots hold the position. -/
structure Held (state : Option PositionCostBasisStateEntity) (cost fees : Lot ℚ) : Prop where
  units : cost.units = quantityOf state
  feeUnits : fees.units = quantityOf state
  cost : cost.amount = quantityOf state * averageCostOf state
  fees : fees.amount = poolOf state
  flat : quantityOf state = 0 → averageCostOf state = 0

theorem held_nothing : Held none Lot.empty Lot.empty :=
  ⟨rfl, rfl, by simp [Lot.empty, quantityOf], rfl, fun _ => rfl⟩

/-- A fill that passes its checks. -/
structure Valid (fill : NormalizedFill) : Prop where
  quantity : 0 < fill.quantity
  price : 0 ≤ fill.price
  fee : 0 ≤ fill.fee
  tax : 0 ≤ fill.tax

theorem validateFill_ok {fill : NormalizedFill} (h : validateFill fill = .ok ()) : Valid fill := by
  unfold validateFill at h
  split at h
  · contradiction
  next hquantity =>
    split at h
    · contradiction
    next hprice =>
      split at h
      · contradiction
      next hcharges =>
        simp only [not_or, not_lt] at hcharges
        exact ⟨not_le.mp hquantity, not_lt.mp hprice, hcharges.1, hcharges.2⟩

theorem applyFillToCostBasis_side {n : Numerics} {deriveEventId : UUID → UUID}
    {state : Option PositionCostBasisStateEntity} {fill : NormalizedFill} {runId : UUID}
    {state' : PositionCostBasisStateEntity}
    {event : Option RealizedPnlEventEntity}
    (h : applyFillToCostBasis n deriveEventId state fill runId = .ok (state', event)) :
    Valid fill ∧ (fill.side = .buy → state' = applyBuy n state fill ∧ event = none) ∧
      (fill.side = .sell → ∃ e, event = some e ∧
        applySell n deriveEventId state fill runId = .ok (state', e)) := by
  unfold applyFillToCostBasis at h
  obtain ⟨_, hvalidate, h⟩ := bind_eq_ok.mp h
  refine ⟨validateFill_ok hvalidate, ?_⟩
  cases hside : fill.side with
  | buy =>
    rw [hside] at h
    cases h
    exact ⟨fun _ => ⟨rfl, rfl⟩, fun hsell => by contradiction⟩
  | sell =>
    rw [hside] at h
    obtain ⟨⟨row, e⟩, hsell, h⟩ := bind_eq_ok.mp h
    cases h
    exact ⟨fun hbuy => by contradiction, fun _ => ⟨e, rfl, hsell⟩⟩

theorem held_eq_none {state : Option PositionCostBasisStateEntity} (h : held state = none) :
    quantityOf state = 0 := by
  cases state with
  | none => rfl
  | some row => simpa [held] using h

theorem held_eq_some {state : Option PositionCostBasisStateEntity}
    {row : PositionCostBasisStateEntity} (h : held state = some row) :
    state = some row ∧ row.quantity ≠ 0 := by
  simpa [held] using h

section
variable {deriveEventId : UUID → UUID}

theorem applyBuy_held {state : Option PositionCostBasisStateEntity} {fill : NormalizedFill}
    {cost fees : Lot ℚ} (hheld : Held state cost fees) (hvalid : Valid fill) :
    Held (some (applyBuy exact state fill))
      (cost.put fill.quantity (fill.quantity * fill.price) hvalid.quantity
        (mul_nonneg hvalid.quantity.le hvalid.price))
      (fees.put fill.quantity fill.fee hvalid.quantity hvalid.fee) := by
  have hunits := cost.units_nonneg
  have hpos := hvalid.quantity
  cases hrow : held state with
  | none =>
    have hzero := held_eq_none hrow
    have hcost : cost.amount = 0 := by rw [hheld.cost, hzero, zero_mul]
    have hfees : fees.amount = 0 := fees.amount_of_empty (by rw [hheld.feeUnits, hzero])
    constructor
    · simp [Lot.put, applyBuy, hrow, appliedState, hheld.units, hzero]
    · simp [Lot.put, applyBuy, hrow, appliedState, hheld.feeUnits, hzero]
    · simp [Lot.put, applyBuy, hrow, appliedState, hcost]
    · simp [Lot.put, applyBuy, hrow, appliedState, hfees]
    · intro hflat
      simp [applyBuy, hrow, appliedState] at hflat
      linarith
  | some row =>
    obtain ⟨rfl, -⟩ := held_eq_some hrow
    have hquantity : 0 ≤ row.quantity := by simpa [hheld.units] using hunits
    have hsum : row.quantity + fill.quantity ≠ 0 := by linarith
    constructor
    · simp [Lot.put, applyBuy, hrow, appliedState, hheld.units]
    · simp [Lot.put, applyBuy, hrow, appliedState, hheld.feeUnits]
    · simp [Lot.put, applyBuy, hrow, appliedState, hheld.cost, mul_div_cancel₀ _ hsum]
    · simp [Lot.put, applyBuy, hrow, appliedState, hheld.fees]
    · intro hflat
      exact absurd (by simpa [applyBuy, hrow, appliedState] using hflat) hsum

/-- What the event of a fill says of it, with the cost and the fees that went with it. -/
structure Charges (fill : NormalizedFill) (event : Option RealizedPnlEventEntity)
    (cost fees : ℚ) : Prop where
  bought : fill.side = .buy → event = none ∧ cost = 0 ∧ fees = 0
  sold : fill.side = .sell → ∃ e, event = some e ∧
    e.realizedPnlGross = fill.quantity * fill.price - cost ∧ e.allocatedBuyFee = fees ∧
    e.realizedPnlNet = e.realizedPnlGross - fill.fee - fill.tax - fees

theorem applySell_held {state : Option PositionCostBasisStateEntity} {fill : NormalizedFill}
    {runId : UUID} {state' : PositionCostBasisStateEntity} {event : RealizedPnlEventEntity}
    {cost fees : Lot ℚ} (hheld : Held state cost fees) (hside : fill.side = .sell)
    (h : applySell exact deriveEventId state fill runId = .ok (state', event)) :
    ∃ (hcost : fill.quantity ≤ cost.units) (hfees : fill.quantity ≤ fees.units),
      Held (some state') (cost.take fill.quantity hcost) (fees.take fill.quantity hfees) ∧
        Charges fill (some event) (cost.share fill.quantity) (fees.share fill.quantity) := by
  unfold applySell at h
  split at h
  · contradiction
  next row hrow =>
    obtain ⟨rfl, hne⟩ := held_eq_some hrow
    have hunits : cost.units = row.quantity := hheld.units
    have hfeeUnits : fees.units = row.quantity := hheld.feeUnits
    have hshare : cost.share fill.quantity = fill.quantity * row.averageCost := by
      rw [Lot.share, hheld.cost, hunits]
      simp only [quantityOf_some, averageCostOf_some]
      field_simp
    have hallocated : allocatedBuyFee exact row fill = fees.share fill.quantity := by
      unfold allocatedBuyFee
      split
      next hall =>
        rw [hall, ← hfeeUnits, Lot.share_all, hheld.fees, poolOf_some]
      next hpart => simp [Lot.share, hheld.fees, hfeeUnits]
    dsimp only at h
    split at h
    · contradiction
    next hle =>
      simp only [not_or, not_lt, gt_iff_lt] at hle
      cases h
      refine ⟨hunits ▸ hle.1, hfeeUnits ▸ hle.1, ?_, ?_⟩
      · constructor
        · simp [Lot.take, appliedState, hunits]
        · simp [Lot.take, appliedState, hfeeUnits]
        · by_cases hflat : row.quantity - fill.quantity = 0
          · have hall : fill.quantity = row.quantity := (sub_eq_zero.mp hflat).symm
            simp only [Lot.take, appliedState, exact_sub, hflat, quantityOf_some, zero_mul]
            rw [hall, ← hunits, Lot.share_all, sub_self]
          · simp only [Lot.take, appliedState, exact_sub, hflat, if_false, quantityOf_some,
              averageCostOf_some, hshare, hheld.cost]
            ring
        · by_cases hall : fill.quantity = row.quantity
          · simp only [Lot.take, appliedState, poolOf_some, if_pos hall]
            rw [hall, ← hfeeUnits, Lot.share_all, sub_self]
          · simp [Lot.take, appliedState, hall, hallocated, hheld.fees]
        · intro hflat
          simp only [appliedState, exact_sub, quantityOf_some] at hflat
          simp [appliedState, hflat]
      · constructor
        · intro hbuy
          rw [hside] at hbuy
          contradiction
        · intro _
          refine ⟨_, rfl, ?_, hallocated, ?_⟩
          · simp only [exact_mul, exact_sub, hshare]
            ring
          · simp [hallocated]

theorem applyFillToCostBasis_held {state : Option PositionCostBasisStateEntity}
    {fill : NormalizedFill} {runId : UUID} {state' : PositionCostBasisStateEntity}
    {event : Option RealizedPnlEventEntity} {cost fees : Lot ℚ} (hheld : Held state cost fees)
    (h : applyFillToCostBasis exact deriveEventId state fill runId = .ok (state', event)) :
    ∃ cost' fees' goneCost goneFees, cost.move (costMove fill) = some (cost', goneCost) ∧
      fees.move (feeMove fill) = some (fees', goneFees) ∧ Held (some state') cost' fees' ∧
      Charges fill event goneCost goneFees := by
  obtain ⟨hvalid, hbuys, hsells⟩ := applyFillToCostBasis_side h
  cases hside : fill.side with
  | buy =>
    obtain ⟨rfl, rfl⟩ := hbuys hside
    have hcost : 0 ≤ fill.quantity * fill.price := mul_nonneg hvalid.quantity.le hvalid.price
    refine ⟨_, _, 0, 0, ?_, ?_, applyBuy_held hheld hvalid, fun _ => ⟨rfl, rfl, rfl⟩, ?_⟩
    · simp [costMove, hside, Lot.move, hvalid.quantity, hcost]
    · simp [feeMove, hside, Lot.move, hvalid.quantity, hvalid.fee]
    · intro hsell
      rw [hside] at hsell
      contradiction
  | sell =>
    obtain ⟨e, rfl, hsell⟩ := hsells hside
    obtain ⟨hcost, hfees, hnext, hcharges⟩ := applySell_held hheld hside hsell
    refine ⟨_, _, _, _, ?_, ?_, hnext, hcharges⟩
    · simp [costMove, hside, Lot.move, hvalid.quantity, hcost]
    · simp [feeMove, hside, Lot.move, hvalid.quantity, hfees]

def totalOf (side : OrderSide) (f : NormalizedFill → ℚ) (fills : List NormalizedFill) : ℚ :=
  ((fills.filter (·.side = side)).map f).sum

def bought : List NormalizedFill → ℚ := totalOf .buy (·.quantity)

def sold : List NormalizedFill → ℚ := totalOf .sell (·.quantity)

def buyCost : List NormalizedFill → ℚ := totalOf .buy fun fill => fill.quantity * fill.price

def saleProceeds : List NormalizedFill → ℚ := totalOf .sell fun fill => fill.quantity * fill.price

def buyFees : List NormalizedFill → ℚ := totalOf .buy (·.fee)

def sellFees : List NormalizedFill → ℚ := totalOf .sell (·.fee)

def sellTaxes : List NormalizedFill → ℚ := totalOf .sell (·.tax)

theorem totalOf_eq_sum (side : OrderSide) (f : NormalizedFill → ℚ) (fills : List NormalizedFill) :
    totalOf side f fills = (fills.map fun fill => if fill.side = side then f fill else 0).sum := by
  unfold totalOf
  induction fills with
  | nil => rfl
  | cons fill fills ih => by_cases hside : fill.side = side <;> simp [hside, ih]

theorem totalOf_concat (side : OrderSide) (f : NormalizedFill → ℚ) (fills : List NormalizedFill)
    (fill : NormalizedFill) :
    totalOf side f (fills ++ [fill]) =
      totalOf side f fills + if fill.side = side then f fill else 0 := by
  simp [totalOf_eq_sum]

theorem sum_unitsIn (fills : List NormalizedFill) :
    ((fills.map costMove).map Lot.Move.unitsIn).sum = bought fills := by
  rw [bought, totalOf_eq_sum, List.map_map]
  congr 2
  funext fill
  cases hside : fill.side <;> simp [costMove, hside, Lot.Move.unitsIn]

theorem sum_unitsOut (fills : List NormalizedFill) :
    ((fills.map costMove).map Lot.Move.unitsOut).sum = sold fills := by
  rw [sold, totalOf_eq_sum, List.map_map]
  congr 2
  funext fill
  cases hside : fill.side <;> simp [costMove, hside, Lot.Move.unitsOut]

theorem sum_costIn (fills : List NormalizedFill) :
    ((fills.map costMove).map Lot.Move.amountIn).sum = buyCost fills := by
  rw [buyCost, totalOf_eq_sum, List.map_map]
  congr 2
  funext fill
  cases hside : fill.side <;> simp [costMove, hside, Lot.Move.amountIn]

theorem sum_feesIn (fills : List NormalizedFill) :
    ((fills.map feeMove).map Lot.Move.amountIn).sum = buyFees fills := by
  rw [buyFees, totalOf_eq_sum, List.map_map]
  congr 2
  funext fill
  cases hside : fill.side <;> simp [feeMove, hside, Lot.Move.amountIn]

def grossSum (events : List RealizedPnlEventEntity) : ℚ := (events.map (·.realizedPnlGross)).sum

def netSum (events : List RealizedPnlEventEntity) : ℚ := (events.map (·.realizedPnlNet)).sum

def allocatedSum (events : List RealizedPnlEventEntity) : ℚ := (events.map (·.allocatedBuyFee)).sum

/-- The fills moved the lots, and the events account for what went out of them. -/
structure Accounted (fills : List NormalizedFill) (result : ReplayResult) (cost fees : Lot ℚ)
    (goneCost goneFees : ℚ) : Prop where
  costRun : Lot.empty.run (fills.map costMove) = some (cost, goneCost)
  feeRun : Lot.empty.run (fills.map feeMove) = some (fees, goneFees)
  held : Held result.finalState cost fees
  gross : grossSum result.realizedPnlEvents = saleProceeds fills - goneCost
  allocated : allocatedSum result.realizedPnlEvents = goneFees
  net : netSum result.realizedPnlEvents =
    grossSum result.realizedPnlEvents - sellFees fills - sellTaxes fills - goneFees

theorem replayFills_accounted {fills : List NormalizedFill} {runId : UUID} {result : ReplayResult}
    (h : replayFills exact deriveEventId fills runId = .ok result) :
    ∃ cost fees goneCost goneFees, Accounted fills result cost fees goneCost goneFees := by
  induction fills using List.reverseRecOn generalizing result with
  | nil =>
    cases h
    refine ⟨Lot.empty, Lot.empty, 0, 0, rfl, rfl, held_nothing, ?_, rfl, ?_⟩
    · simp [grossSum, saleProceeds, totalOf]
    · simp [grossSum, netSum, sellFees, sellTaxes, totalOf]
  | append_singleton fills fill ih =>
    obtain ⟨before, state, event, hbefore, -, happly, rfl⟩ := replayFills_concat h
    obtain ⟨cost, fees, goneCost, goneFees, haccounted⟩ := ih hbefore
    obtain ⟨cost', fees', nowCost, nowFees, hcost, hfees, hheld, hcharges⟩ :=
      applyFillToCostBasis_held haccounted.held happly
    have hcostRun := Lot.run_concat haccounted.costRun hcost
    have hfeeRun := Lot.run_concat haccounted.feeRun hfees
    refine ⟨cost', fees', goneCost + nowCost, goneFees + nowFees, ?_⟩
    have hgross := haccounted.gross
    have hallocated := haccounted.allocated
    have hnet := haccounted.net
    cases hside : fill.side with
    | buy =>
      obtain ⟨rfl, rfl, rfl⟩ := hcharges.bought hside
      exact {
        costRun := by simpa using hcostRun
        feeRun := by simpa using hfeeRun
        held := hheld
        gross := by simpa [saleProceeds, totalOf_concat, hside] using hgross
        allocated := by simpa using hallocated
        net := by simpa [sellFees, sellTaxes, totalOf_concat, hside] using hnet }
    | sell =>
      obtain ⟨e, rfl, he, hfee, hafter⟩ := hcharges.sold hside
      simp only [grossSum, netSum, allocatedSum, saleProceeds, sellFees, sellTaxes]
        at hgross hallocated hnet
      constructor
      · simpa using hcostRun
      · simpa using hfeeRun
      · exact hheld
      · simp only [grossSum, saleProceeds, totalOf_concat, hside, if_true, Option.toList_some,
          List.map_append, List.sum_append, List.map_cons, List.map_nil, List.sum_cons,
          List.sum_nil]
        linarith
      · simp only [allocatedSum, Option.toList_some, List.map_append, List.sum_append,
          List.map_cons, List.map_nil, List.sum_cons, List.sum_nil]
        linarith
      · simp only [grossSum, netSum, sellFees, sellTaxes, totalOf_concat, hside, if_true,
          Option.toList_some, List.map_append, List.sum_append, List.map_cons, List.map_nil,
          List.sum_cons, List.sum_nil]
        linarith

/-- The position is what was bought and not sold, never less than nothing, and the gross
results are the proceeds less the cost of what was sold. -/
theorem replayFills_conserves_cost (deriveEventId : UUID → UUID) (fills : List NormalizedFill)
    (runId : UUID) (result : ReplayResult)
    (h : replayFills exact deriveEventId fills runId = .ok result) :
    quantityOf result.finalState = bought fills - sold fills ∧
      (∀ taken rest, fills = taken ++ rest → ∃ before,
        replayFills exact deriveEventId taken runId = .ok before ∧
          0 ≤ quantityOf before.finalState) ∧
      grossSum result.realizedPnlEvents = saleProceeds fills - buyCost fills +
        quantityOf result.finalState * averageCostOf result.finalState := by
  obtain ⟨cost, fees, goneCost, goneFees, haccounted⟩ := replayFills_accounted h
  obtain ⟨hunits, hamount⟩ := Lot.run_balanced haccounted.costRun
  rw [sum_unitsIn, sum_unitsOut, haccounted.held.units] at hunits
  rw [sum_costIn, haccounted.held.cost] at hamount
  simp only [Lot.empty, zero_add] at hunits hamount
  refine ⟨by linarith, ?_, by linarith [haccounted.gross]⟩
  intro taken rest hfills
  obtain ⟨before, hbefore⟩ := replayFills_before h hfills
  obtain ⟨cost, _, _, _, hheld⟩ := replayFills_accounted hbefore
  exact ⟨before, hbefore, hheld.held.units ▸ cost.units_nonneg⟩

/-- Two buys, a part of them sold, the rest sold, and a new position. -/
def roundTrip : List NormalizedFill :=
  let fill (n : Nat) (side : OrderSide) (quantity price fee tax : ℚ) : NormalizedFill :=
    { fillEventId := n
      accountId := 1
      instrumentId := 2
      brokerOrderId := n
      orderRequestId := n
      side := side
      quantity := quantity
      price := price
      fee := fee
      tax := tax
      feeTaxSource := .reported
      fillTimestamp := n }
  [fill 1 .buy 10 100 5 0, fill 2 .buy 6 130 3 0, fill 3 .sell 4 120 1 2, fill 4 .sell 12 140 2 3,
    fill 5 .buy 1 90 1 0]

/-- The replay of the round trip, as far as it is looked at. -/
def roundTripReplay : ReplayResult :=
  (replayFills exact id roundTrip 7).toOption.getD ⟨none, []⟩

theorem roundTrip_accepted : replayFills exact id roundTrip 7 = .ok roundTripReplay := by
  decide +kernel

theorem replayFills_conserves_cost_roundTrip :
    quantityOf roundTripReplay.finalState = bought roundTrip - sold roundTrip ∧
      (∀ taken rest, roundTrip = taken ++ rest → ∃ before,
        replayFills exact id taken 7 = .ok before ∧ 0 ≤ quantityOf before.finalState) ∧
      grossSum roundTripReplay.realizedPnlEvents = saleProceeds roundTrip - buyCost roundTrip +
        quantityOf roundTripReplay.finalState * averageCostOf roundTripReplay.finalState :=
  replayFills_conserves_cost id roundTrip 7 roundTripReplay roundTrip_accepted

/-- Every buy fee is charged to a sale or still in the pool, the net results are the gross ones
less all charges, and an empty position has neither cost nor pool. -/
theorem replayFills_conserves_fees (deriveEventId : UUID → UUID) (fills : List NormalizedFill)
    (runId : UUID) (result : ReplayResult)
    (h : replayFills exact deriveEventId fills runId = .ok result) :
    buyFees fills = allocatedSum result.realizedPnlEvents + poolOf result.finalState ∧
      netSum result.realizedPnlEvents = grossSum result.realizedPnlEvents - sellFees fills -
        sellTaxes fills - allocatedSum result.realizedPnlEvents ∧
      ∀ taken rest, fills = taken ++ rest → ∃ before,
        replayFills exact deriveEventId taken runId = .ok before ∧
          0 ≤ poolOf before.finalState ∧
          (quantityOf before.finalState = 0 →
            averageCostOf before.finalState = 0 ∧ poolOf before.finalState = 0) := by
  obtain ⟨cost, fees, goneCost, goneFees, haccounted⟩ := replayFills_accounted h
  have hamount := (Lot.run_balanced haccounted.feeRun).2
  rw [sum_feesIn, haccounted.held.fees] at hamount
  simp only [Lot.empty, zero_add] at hamount
  refine ⟨by linarith [haccounted.allocated], by rw [haccounted.net, haccounted.allocated], ?_⟩
  intro taken rest hfills
  obtain ⟨before, hbefore⟩ := replayFills_before h hfills
  obtain ⟨_, fees, _, _, htaken⟩ := replayFills_accounted hbefore
  refine ⟨before, hbefore, htaken.held.fees ▸ fees.amount_nonneg, fun hzero => ?_⟩
  refine ⟨htaken.held.flat hzero, ?_⟩
  rw [← htaken.held.fees]
  apply fees.amount_of_empty
  rw [htaken.held.feeUnits, hzero]

theorem replayFills_conserves_fees_roundTrip :
    buyFees roundTrip = allocatedSum roundTripReplay.realizedPnlEvents +
        poolOf roundTripReplay.finalState ∧
      netSum roundTripReplay.realizedPnlEvents = grossSum roundTripReplay.realizedPnlEvents -
        sellFees roundTrip - sellTaxes roundTrip -
        allocatedSum roundTripReplay.realizedPnlEvents ∧
      ∀ taken rest, roundTrip = taken ++ rest → ∃ before,
        replayFills exact id taken 7 = .ok before ∧ 0 ≤ poolOf before.finalState ∧
          (quantityOf before.finalState = 0 →
            averageCostOf before.finalState = 0 ∧ poolOf before.finalState = 0) :=
  replayFills_conserves_fees id roundTrip 7 roundTripReplay roundTrip_accepted

end

end AgentTrading.RealizedPnl
